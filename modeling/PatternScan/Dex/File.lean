import PatternScan.Bytes.Basic
/-! A dex file has tables of strings, types, prototypes, fields and methods, which refer to one another by
index, and class definitions. -/
namespace PatternScan.Bytes
def uleb128From (b:Bytes)(i:Nat)(k value:Nat):Nat→Option (Nat×Nat)
 | 0=>none
 | n+1=>
  if b.size ≤ i then none
  else
   let c:=(b.byteAt i).toNat
   if k==4 then some ((value+c*0x10000000)%0x100000000,5)
   else if c<128 then some (value+c <<< (7*k),k+1)
   else uleb128From b (i+1) (k+1) (value+(c-128) <<< (7*k)) n
def uleb128? (b:Bytes)(i:Nat):Option (Nat×Nat):=uleb128From b i 0 0 5
end PatternScan.Bytes
namespace PatternScan.Dex
def headerSize:Nat:=112
def magics:List Bytes:=
 ["035","036","037","038","039"].map fun v=>Bytes.ofText ("dex\n"++v++"\x00")

/-- A text of the string table.  It is taken to start one byte after its offset. -/
structure Text where
 offset:Nat
 value:Bytes
structure Prototype where
 shorty:Nat
 returnType:Nat
 parameters:Nat
structure MemberId where
 owner:Nat
 type:Nat
 name:Nat
structure MapItem where
 type:Nat
 unused:Nat
 size:Nat
 offset:Nat
structure ClassDefinition where
 type:Nat
 access:Nat
 superclass:Nat
 interfaces:Nat
 sourceFile:Nat
 annotations:Nat
 data:Nat
 staticValues:Nat
structure ClassData where
 staticFields:Nat
 instanceFields:Nat
 directMethods:Nat
 virtualMethods:Nat
structure Code where
 registers:Nat
 ins:Nat
 outs:Nat
 tries:Nat
 debugInfo:Nat
 size:Nat
 instructions:Option Bytes
deriving Inhabited
structure MemberNames where
 owner:Option Bytes:=none
 name:Option Bytes:=none
 prototype:Option Bytes:=none
structure Member where
 first:Bool
 difference:Nat
 access:Nat
 codeOffset:Nat:=0
 names:MemberNames:={}
 code:Option Code:=none

/-- The members found so far.  One whose index is unknown is kept until another takes its place. -/
structure Members where
 known:Array Member:=#[]
 pending:Option Member:=none
def Members.toArray (m:Members):Array Member:=m.known++m.pending.toList.toArray
structure File where
 data:Bytes
 strings:Array (Option Text):=#[]
 types:Array Nat:=#[]
 prototypes:Array Prototype:=#[]
 fieldIds:Array MemberId:=#[]
 methodIds:Array MemberId:=#[]
 mapSize:Option Nat:=none
 map:Array MapItem:=#[]
 classes:Array ClassDefinition:=#[]
 classData:Array ClassData:=#[]
 fields:Members:={}
 methods:Members:={}
 complete:Bool:=false
def fits (d:Bytes)(offset size:Nat):Bool:=offset+size≤d.size
def File.word (f:File)(offset:Nat):Nat:=f.data.le offset 4
def File.table? (f:File)(sizeField itemSize:Nat):Option (Array Nat):=
 let count:=f.word sizeField
 let offset:=f.word (sizeField+4)
 if fits f.data offset (count*itemSize) then
  some ((List.range count).map fun i=>offset+i*itemSize).toArray
 else none
def textAt? (d:Bytes)(offset:Nat):Option Text:=
 if !fits d offset 4 then none
 else
  match d.uleb128? offset with
  | none=>none
  | some (size,_)=>
   if fits d (offset+1) size then some ⟨offset,d.slice (offset+1) size⟩ else none
def memberIdAt (d:Bytes)(i:Nat):MemberId:=⟨d.le i 2,d.le (i+2) 2,d.le (i+4) 4⟩
def indexLimit:Nat:=0x80000
def File.text? (f:File)(index:Nat):Option Bytes:=
 if indexLimit < index then none else ((f.strings[index]?).join).map (·.value)
def File.typeName? (f:File)(index:Nat):Option Bytes:=
 if indexLimit < index then none else (f.types[index]?).bind f.text?
def idAt? (ids:Array MemberId)(index:Nat):Option MemberId:=
 if indexLimit < index then none else ids[index]?
def codeAt? (d:Bytes)(i:Nat):Option Code:=
 if i==0||!fits d i 16 then none
 else
  let size:=d.le (i+12) 4
  some
   { registers:=d.le i 2
     ins:=d.le (i+2) 2
     outs:=d.le (i+4) 2
     tries:=d.le (i+6) 2
     debugInfo:=d.le (i+8) 4
     size:=size
     instructions:=if fits d (i+16) (2*size) then some (d.slice (i+16) (2*size)) else none }
structure Encoded where
 member:Member
 size:Nat
 index:Nat
 known:Bool
def File.field? (f:File)(first:Bool)(offset previous:Nat):Option Encoded:=do
 if !fits f.data offset 8 then none
 let (difference,n) ← f.data.uleb128? offset
 let (access,m) ← f.data.uleb128? (offset+n)
 let index:=(previous+difference)%0x100000000
 let member:Member:={first:=first,difference:=difference,access:=access}
 match idAt? f.fieldIds index with
 | none=>some ⟨member,n+m,index,false⟩
 | some id=>
  let names:MemberNames:=⟨f.typeName? id.owner,f.text? id.name,f.typeName? id.type⟩
  some ⟨{member with names:=names},n+m,index,true⟩
def File.method? (f:File)(first:Bool)(offset previous:Nat):Option Encoded:=do
 if !fits f.data offset 12 then none
 let (difference,n) ← f.data.uleb128? offset
 let (access,m) ← f.data.uleb128? (offset+n)
 let (code,k) ← f.data.uleb128? (offset+n+m)
 let index:=(previous+difference)%0x100000000
 let member:Member:=
  {first:=first,difference:=difference,access:=access,codeOffset:=code}
 match idAt? f.methodIds index with
 | none=>some ⟨member,n+m+k,index,false⟩
 | some id=>
  let prototype:=
   if indexLimit < id.type then none
   else (f.prototypes[id.type]?).bind fun p=>f.text? p.shorty
  let names:MemberNames:=⟨f.typeName? id.owner,f.text? id.name,prototype⟩
  some ⟨{member with names:=names,code:=codeAt? f.data code},n+m+k,index,true⟩

/-- The members that stand one behind the other.  An offset is not reduced to 32 bits: in a file shorter than 4 GiB each
one that is read at is below `2^32`. -/
def readMembers (read:Nat→Nat→Option Encoded):Nat→Nat→Nat→Members→Nat×Members
 | 0,offset,_,done=>(offset,done)
 | n+1,offset,previous,done=>
  match read offset previous with
  | none=>(offset,done)
  | some e=>
   if e.known then
    readMembers read n (offset+e.size) e.index ⟨done.known.push e.member,none⟩
   else (offset,{done with pending:=some e.member})
def classDataAt? (d:Bytes)(offset:Nat):Option (ClassData×Nat):=do
 if !fits d offset 16 then none
 let (a,n) ← d.uleb128? offset
 let (b,m) ← d.uleb128? (offset+n)
 let (c,k) ← d.uleb128? (offset+n+m)
 let (e,l) ← d.uleb128? (offset+n+m+k)
 some (⟨a,b,c,e⟩,offset+n+m+k+l)
def File.withClassData (f:File)(c:ClassData)(offset:Nat):File:=
 let (offset,fields):=readMembers (f.field? true) c.staticFields offset 0 f.fields
 let (offset,fields):=readMembers (f.field? false) c.instanceFields offset 0 fields
 let (offset,methods):=readMembers (f.method? true) c.directMethods offset 0 f.methods
 let (_,methods):=readMembers (f.method? false) c.virtualMethods offset 0 methods
 {f with classData:=f.classData.push c,fields:=fields,methods:=methods}
def classAt (d:Bytes)(i:Nat):ClassDefinition:=
 let n (k:Nat):Nat:=d.le (i+4*k) 4
 ⟨n 0,n 1,n 2,n 3,n 4,n 5,n 6,n 7⟩
def File.withClasses (f:File):List Nat→File
 | []=>{f with complete:=true}
 | i::rest=>
  let c:=classAt f.data i
  let f:={f with classes:=f.classes.push c}
  if c.data==0 then f.withClasses rest
  else
   match classDataAt? f.data c.data with
   | none=>f
   | some (counts,offset)=>(f.withClassData counts offset).withClasses rest
def mapItemAt (d:Bytes)(i:Nat):MapItem:=
 ⟨d.le i 2,d.le (i+2) 2,d.le (i+4) 4,d.le (i+8) 4⟩
def File.withMap (f:File):Bool×File:=
 let offset:=f.word 52
 if offset==0||!fits f.data offset 4 then (true,f)
 else
  let size:=f.data.le offset 4
  let f:={f with mapSize:=some size}
  if f.data.size<4+12*size then (false,f)
  else
   let places:=(List.range size).map fun i=>offset+4+12*i
   let inside:=places.takeWhile fun i=>fits f.data i 12
   (inside.length==size,{f with map:=(inside.map (mapItemAt f.data)).toArray})
def File.withTables (f:File):Bool×File:=
 match f.table? 56 4 with
 | none=>(false,f)
 | some places=>
  let f:={f with strings:=places.map fun i=>textAt? f.data (f.data.le i 4)}
  match f.table? 64 4 with
  | none=>(false,f)
  | some places=>
   let f:={f with types:=places.map fun i=>f.data.le i 4}
   match f.table? 72 12 with
   | none=>(false,f)
   | some places=>
    let prototype (i:Nat):Prototype:=
     ⟨f.data.le i 4,f.data.le (i+4) 4,f.data.le (i+8) 4⟩
    let f:={f with prototypes:=places.map prototype}
    match f.table? 80 8 with
    | none=>(false,f)
    | some places=>
     let f:={f with fieldIds:=places.map (memberIdAt f.data)}
     match f.table? 88 8 with
     | none=>(false,f)
     | some places=>(true,{f with methodIds:=places.map (memberIdAt f.data)})
def File.read? (d:Bytes):Option File:=
 if d.size<headerSize||!magics.contains (d.slice 0 8) then none
 else
  match ({data:=d}:File).withTables with
  | (false,f)=>some f
  | (true,f)=>
   match f.withMap with
   | (false,f)=>some f
   | (true,f)=>
    match f.table? 96 32 with
    | none=>some f
    | some places=>some (f.withClasses places.toList)
end PatternScan.Dex
