import PatternScan.Dotnet.Metadata
namespace PatternScan.Dotnet
open Pe
inductive Table where
 | module | typeRef | typeDef | fieldPointer | field | methodPointer | method | param | interfaceImpl
 | memberRef | constant | customAttribute | fieldMarshal | security | classLayout | fieldLayout
 | standAloneSignature | eventMap | eventPointer | event | propertyMap | propertyPointer | property
 | methodSemantics | methodImpl | moduleRef | typeSpec | implementationMap | fieldAddress | editLog | editMap
 | assembly | assemblyProcessor | assemblySystem | assemblyRef | assemblyRefProcessor | assemblyRefSystem
 | file | exportedType | manifestResource | nestedClass | genericParam | methodSpec | genericParamConstraint
deriving DecidableEq,Inhabited
namespace Table
def numbered:List (Nat×Table):=
 [(0x00,.module),(0x01,.typeRef),(0x02,.typeDef),(0x03,.fieldPointer),(0x04,.field),
  (0x05,.methodPointer),(0x06,.method),(0x08,.param),(0x09,.interfaceImpl),
  (0x0A,.memberRef),(0x0B,.constant),(0x0C,.customAttribute),(0x0D,.fieldMarshal),
  (0x0E,.security),(0x0F,.classLayout),(0x10,.fieldLayout),(0x11,.standAloneSignature),
  (0x12,.eventMap),(0x13,.eventPointer),(0x14,.event),(0x15,.propertyMap),
  (0x16,.propertyPointer),(0x17,.property),(0x18,.methodSemantics),(0x19,.methodImpl),
  (0x1A,.moduleRef),(0x1B,.typeSpec),(0x1C,.implementationMap),(0x1D,.fieldAddress),
  (0x1E,.editLog),(0x1F,.editMap),(0x20,.assembly),(0x21,.assemblyProcessor),
  (0x22,.assemblySystem),(0x23,.assemblyRef),(0x24,.assemblyRefProcessor),
  (0x25,.assemblyRefSystem),(0x26,.file),(0x27,.exportedType),(0x28,.manifestResource),
  (0x29,.nestedClass),(0x2A,.genericParam),(0x2B,.methodSpec),(0x2C,.genericParamConstraint)]
def ofNumber? (n:Nat):Option Table:=numbered.lookup n
def number (t:Table):Nat:=(numbered.find? (·.2==t)).elim 0 (·.1)
end Table
inductive Column where
 | plain (bytes:Nat)
 | string | guid | blob
 | row (of:Table)
 | coded (bits:Nat)(of:List Table)
deriving DecidableEq,Inhabited
namespace Column
def typeDefOrRef:Column:=.coded 2 [.typeDef,.typeRef,.typeSpec]
def attributed:Column:=
 .coded 5 [.method,.field,.typeRef,.typeDef,.param,.interfaceImpl,.memberRef,.module,.property,
   .event,.standAloneSignature,.moduleRef,.typeSpec,.assembly,.assemblyRef,.file,
   .exportedType,.manifestResource,.genericParam,.genericParamConstraint,.methodSpec]
def methodDefOrRef:Column:=.coded 1 [.method,.memberRef]
end Column
def Table.columns:Table→List Column
 | .module=>[.plain 2,.string,.guid,.guid,.guid]
 | .typeRef=>[.coded 2 [.module,.moduleRef,.assemblyRef,.typeRef],.string,.string]
 | .typeDef=>[.plain 4,.string,.string,.typeDefOrRef,.row .field,.row .method]
 | .fieldPointer=>[.row .field]
 | .field=>[.plain 2,.string,.blob]
 | .methodPointer=>[.row .method]
 | .method=>[.plain 4,.plain 2,.plain 2,.string,.blob,.row .param]
 | .param=>[.plain 2,.plain 2,.string]
 | .interfaceImpl=>[.row .typeDef,.typeDefOrRef]
 | .memberRef=>[.coded 3 [.method,.moduleRef,.typeRef,.typeSpec],.string,.blob]
 | .constant=>[.plain 1,.plain 1,.coded 2 [.param,.field,.property],.blob]
 | .customAttribute=>[.attributed,.coded 3 [.method,.memberRef],.blob]
 | .fieldMarshal=>[.coded 1 [.field,.param],.blob]
 | .security=>[.plain 2,.coded 2 [.typeDef,.method,.assembly],.blob]
 | .classLayout=>[.plain 2,.plain 4,.row .typeDef]
 | .fieldLayout=>[.plain 4,.row .field]
 | .standAloneSignature=>[.blob]
 | .eventMap=>[.row .typeDef,.row .event]
 | .eventPointer=>[.row .event]
 | .event=>[.plain 2,.string,.typeDefOrRef]
 | .propertyMap=>[.row .typeDef,.row .property]
 | .propertyPointer=>[.row .property]
 | .property=>[.plain 2,.string,.blob]
 | .methodSemantics=>[.plain 2,.row .method,.coded 1 [.event,.property]]
 | .methodImpl=>[.row .typeDef,.methodDefOrRef,.methodDefOrRef]
 | .moduleRef=>[.string]
 | .typeSpec=>[.blob]
 | .implementationMap=>[.plain 2,.coded 1 [.field,.method],.string,.row .moduleRef]
 | .fieldAddress=>[.plain 4,.row .field]
 | .editLog=>[.plain 4,.plain 4]
 | .editMap=>[.plain 4]
 | .assembly=>
  [.plain 4,.plain 2,.plain 2,.plain 2,.plain 2,.plain 4,.blob,.string,.string]
 | .assemblyProcessor=>[.plain 4]
 | .assemblySystem=>[.plain 4,.plain 4,.plain 4]
 | .assemblyRef=>
  [.plain 2,.plain 2,.plain 2,.plain 2,.plain 4,.blob,.string,.string,.blob]
 | .assemblyRefProcessor=>[.plain 4,.row .assemblyRefProcessor]
 | .assemblyRefSystem=>[.plain 4,.plain 4,.plain 4,.row .assemblyRef]
 | .file=>[.plain 4,.string,.blob]
 | .exportedType=>
  [.plain 4,.plain 4,.string,.string,.coded 2 [.file,.assemblyRef,.exportedType]]
 | .manifestResource=>[.plain 4,.plain 4,.string,.coded 2 [.file,.assemblyRef]]
 | .nestedClass=>[.row .typeDef,.row .typeDef]
 | .genericParam=>[.plain 2,.plain 2,.coded 1 [.typeDef,.method],.string]
 | .methodSpec=>[.methodDefOrRef,.blob]
 | .genericParamConstraint=>[.row .genericParam,.typeDefOrRef]
structure Field where
 start:Nat
 width:Nat
 deriving DecidableEq

/-- The widths of references to the heaps, and the rows that are counted for plain and for coded references. -/
structure Widths where
 string:Nat
 guid:Nat
 blob:Nat
 rows:Table→Nat
 targets:Table→Nat
namespace Widths
def reference (bits n:Nat):Nat:=if 0xFFFF >>> bits<n then 4 else 2
def column (w:Widths):Column→Nat
 | .plain n=>n
 | .string=>w.string
 | .guid=>w.guid
 | .blob=>w.blob
 | .row t=>reference 0 (w.rows t)
 | .coded bits ts=>reference bits ((ts.map w.targets).foldl max 0)
def columns (w:Widths)(l:List Column):Nat:=l.foldl (fun n c=>n+w.column c) 0
def row (w:Widths)(t:Table):Nat:=w.columns t.columns
def field (w:Widths)(t:Table)(k:Nat):Field:=
 ⟨w.columns (t.columns.take k),w.column (t.columns.getD k default)⟩
end Widths
structure Place where
 start:Nat
 rows:Nat
 rowSize:Nat
 deriving DecidableEq
namespace Place
def row? (p:Place)(f:File)(n:Nat):Option Nat:=
 let i:=p.start+p.rowSize*(n-1)
 if 1≤n&&n≤p.rows&&f.fits i p.rowSize then some i else none
def leadingRows (p:Place)(f:File)(size:Nat):List Nat:=
 ((List.range p.rows).map fun k=>p.start+p.rowSize*k).takeWhile (f.fits · size)
end Place
structure Tables where
 file:File
 widths:Widths
 strings:Stream
 blobs:Stream
 places:List (Table×Place):=[]
 complete:Bool:=false
namespace Tables
def rowLimit:Nat:=15000
def tableNumbers (valid:Nat):List Nat:=(List.range 64).filter valid.testBit
def rowCounts (f:File)(header:Nat)(numbers:List Nat):Array Nat:=
 numbers.zipIdx.foldl (fun counts (n,k)=>
   if f.fits (header+24) (4*(k+1)) then
    counts.setIfInBounds n (f.word (header+24+4*k))
   else counts)
  (Array.replicate 64 0)

/-- Whether a table is passed over without taking any room: one that holds the only row of its kind outside the file.
-/
def isPassedOver (t:Tables)(table:Table)(offset:Nat):Bool:=
 match table with
 | .module=>!t.file.fits offset 18
 | .assembly=>!t.file.fits offset (t.widths.row .assembly)
 | _=>false

/-- Finds the tables one after the other, the next number of rows at `counts`. It ends early at a table that is not
known or has too many rows. -/
def locate (t:Tables)(counts offset:Nat):List Nat→Tables
 | []=>{t with complete:=true}
 | n::rest=>
  let rows:=t.file.word counts
  if !t.file.fits counts 4||rowLimit<rows then t
  else
   match Table.ofNumber? n with
   | none=>t
   | some table=>
    if t.isPassedOver table offset then locate t (counts+4) offset rest
    else
     let size:=t.widths.row table
     locate {t with places:=t.places++[(table,⟨offset,rows,size⟩)]} (counts+4) (offset+size*rows) rest
def ofStreams? (f:File)(stream strings blobs:Stream):Option Tables:=
 let i:=stream.offset
 if !f.fits i 24 then none
 else
  let heaps:=f.data.byteAt (i+6)
  let numbers:=tableNumbers (f.data.le (i+8) 8)
  let width (bit:UInt8):Nat:=if heaps &&& bit==0 then 2 else 4
  let counts:=rowCounts f i numbers
  let rows (t:Table):Nat:=counts.getD t.number 0
  let t:Tables:=
   { file:=f
     widths:=⟨width 1,width 2,width 4,rows,rows⟩
     strings:=strings
     blobs:=blobs }
  let extra:=if heaps &&& 0x40==0 then 0 else 4
  some (t.locate (i+24) (i+24+4*numbers.length+extra) numbers)
def place? (t:Tables)(table:Table):Option Place:=t.places.lookup table
def rows (t:Tables)(table:Table):Nat:=(t.place? table).elim 0 (·.rows)
def row? (t:Tables)(table:Table)(n:Nat):Option Nat:=
 (t.place? table).bind (·.row? t.file n)
def field (t:Tables)(table:Table)(k:Nat):Field:=t.widths.field table k
/-- The field that the readers of types use: they count the rows of the tables that were found. -/
def rowField (t:Tables)(table:Table)(k:Nat):Field:={t.widths with targets:=t.rows}.field table k
def get (t:Tables)(c:Field)(i:Nat):Nat:=t.file.data.le (i+c.start) c.width
def text? (t:Tables)(index:Nat):Option Bytes:=
 let i:=t.strings.offset+index
 let text:=t.file.textAt i 1025
 if t.strings.size ≤ index||t.file.size ≤ i+text.size||1024<text.size then none
 else some text
def name? (t:Tables)(c:Field)(i:Nat):Option Bytes:=t.text? (t.get c i)
def blob? (t:Tables)(index:Nat):Option (Nat×Nat):=
 heapEntry? t.file.data (t.blobs.offset+index)
end Tables
end PatternScan.Dotnet
