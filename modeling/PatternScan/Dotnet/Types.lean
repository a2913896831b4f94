import PatternScan.Dotnet.Table
namespace PatternScan.Dotnet
open List ByteArray Bytes
structure TypeDef where
 flags:Nat
 name:Nat
 space:Nat
 parent:Nat
 firstMethod:Nat
namespace TypeDef
def isNested (t:TypeDef):Bool:=2≤t.flags%8
def isInterface (t:TypeDef):Bool:=t.flags.testBit 5
def isAbstract (t:TypeDef):Bool:=t.flags.testBit 7
def isSealed (t:TypeDef):Bool:=t.flags.testBit 8
def visibility (t:TypeDef):String:=
 match t.flags%8 with
 | 0 | 5=>"internal"
 | 1 | 2=>"public"
 | 4=>"protected"
 | 6=>"private protected"
 | 7=>"protected internal"
 | _=>"private"
end TypeDef
structure TypeRef where
 name:Nat
 space:Nat
structure Types where
 tables:Tables
 typeDefs:Array (Option TypeDef)
 typeRefs:Array (Option TypeRef)
 typeSpecs:Array (Option Nat)
 nested:List (Nat×Nat)
 interfaces:List (Nat×Nat)
 generics:List (Nat×Nat)
namespace Types
def rowsOf {α:Type}(t:Tables)(table:Table)(read:Nat→α):Array (Option α):=
 (t.place? table).elim #[] fun p=>
  ((range p.rows).map fun k=>(p.row? t.file (k+1)).map read).toArray
def presentRows {α:Type}(t:Tables)(table:Table)(read:Nat→α):List α:=
 (rowsOf t table read).toList.filterMap id
def ofTables (t:Tables):Types:=
 let pair (table:Table)(a b:Nat):List (Nat×Nat):=
  let first:=t.rowField table a
  let second:=t.rowField table b
  presentRows t table fun i=>(t.get first i,t.get second i)
 let defName:=t.rowField .typeDef 1
 let defSpace:=t.rowField .typeDef 2
 let defParent:=t.rowField .typeDef 3
 let defMethod:=t.rowField .typeDef 5
 let refName:=t.rowField .typeRef 1
 let refSpace:=t.rowField .typeRef 2
 let signature:=t.rowField .typeSpec 0
 { tables:=t
   typeDefs:=rowsOf t .typeDef fun i=>
    ⟨t.file.word i,t.get defName i,t.get defSpace i,t.get defParent i,t.get defMethod i⟩
   typeRefs:=rowsOf t .typeRef fun i=>⟨t.get refName i,t.get refSpace i⟩
   typeSpecs:=rowsOf t .typeSpec fun i=>t.get signature i
   nested:=pair .nestedClass 0 1
   interfaces:=pair .interfaceImpl 0 1
   generics:=pair .genericParam 2 3 }
def numbered? {α:Type}(items:Array (Option α))(n:Nat):Option α:=
 if n==0 then none else (items[n-1]?).join
def plainName (b:Bytes):Bytes:=b.extract 0 (b.indexOf 96 0)
def fullName (name space:Option Bytes):Option Bytes:=
 let name:=name.getD empty
 if name.isEmpty then space
 else
  match space with
  | none=>some (plainName name)
  | some s=>some (plainName (if s.isEmpty then name else s.push 46++name))
def nestingLimit:Nat:=10
def moduleClass:Bytes:=ofText "<Module>"
def enclosing (t:Types):Nat→Nat→Option Bytes
 | 0,_=>none
 | depth+1,n=>
  match t.nested.lookup n with
  | none=>none
  | some outer=>
   match numbered? t.typeDefs outer with
   | none=>none
   | some d=>
    let name:=t.tables.text? d.name
    let space:=t.tables.text? d.space
    if name==some moduleClass then none
    else if d.isNested&&outer != n then
     fullName name (fullName space (t.enclosing depth outer))
    else fullName name space
def spaceOf (t:Types)(n:Nat)(d:TypeDef):Option Bytes:=
 let space:=t.tables.text? d.space
 if d.isNested then fullName space (t.enclosing nestingLimit n) else space
def typeName? (t:Types)(ofSignature:List UInt8→Option Bytes)(coded:Nat):Option Bytes:=
 let n:=coded/4
 match coded%4 with
 | 0=>(numbered? t.typeDefs n).bind fun d=>fullName (t.tables.text? d.name) (t.spaceOf n d)
 | 1=>(numbered? t.typeRefs n).bind fun r=>
  fullName (t.tables.text? r.name) (t.tables.text? r.space)
 | 2=>(numbered? t.typeSpecs n).bind fun s=>
  (t.tables.blob? s).bind fun (start,length)=>
   ofSignature (t.tables.file.data.slice start length).toList
 | _=>none
def signatureDepth:Nat:=17
def simpleType? (c:UInt8):Option String:=
 [((0x1:UInt8),"void"),(0x2,"bool"),(0x3,"char"),(0x4,"sbyte"),(0x5,"byte"),
  (0x6,"short"),(0x7,"ushort"),(0x8,"int"),(0x9,"uint"),(0xa,"long"),(0xb,"ulong"),
  (0xc,"float"),(0xd,"double"),(0xe,"string"),(0x16,"TypedReference"),(0x18,"IntPtr"),
  (0x19,"UIntPtr"),(0x1c,"object")].lookup c
def typeList (read:List UInt8→Option Bytes×List UInt8)(separator:Bytes)(count:Nat)
 (s:List UInt8):Bytes×List UInt8:=
 (range count).foldl (fun (text,s) k=>
   match read s with
   | (some type,s)=>(if k==0 then text++type else text++separator++type,s)
   | (none,s)=>(text,s))
  (empty,s)
def readMany {α:Type}(read:List UInt8→α×List UInt8):Nat→List UInt8→List α×List UInt8
 | 0,s=>([],s)
 | n+1,s=>
  let (a,s):=read s
  let (rest,s):=readMany read n s
  (a::rest,s)
def dimensionText (sizes:List Nat)(bounds:List Int)(k:Nat):String:=
 let bound:=bounds.getD k 0
 let lower:=if bound==0 then "" else toString bound++"..."
 match sizes[k]? with
 | some size=>lower++toString (if bound==0 then (size:Int) else size+bound-1)
 | none=>lower
def dimensions (s:List UInt8):Option Bytes×List UInt8:=
 let (rank,s):=readUnsigned s
 if rank==0||50<rank then (none,s)
 else
  let (sizeCount,s):=readUnsigned s
  if rank<sizeCount then (none,s)
  else
   let (sizes,s):=readMany readUnsigned sizeCount s
   let (boundCount,s):=readUnsigned s
   if rank<boundCount then (none,s)
   else
    let (bounds,s):=readMany readSigned boundCount s
    let texts:=(range rank).map (dimensionText sizes bounds)
    (some (ofText (",".intercalate texts)),s)
def typeAt (t:Types)(ofClass:List Bytes):Nat→List Bytes→List UInt8→Option Bytes×List UInt8
 | 0,_,s=>(none,s)
 | _+1,_,[]=>(none,[])
 | depth+1,ofMethod,c::s=>
  let read:=t.typeAt ofClass depth ofMethod
  let around (before after:String):Option Bytes×List UInt8:=
   let (type,s):=read s
   (type.map fun b=>ofText before++b++ofText after,s)
  match simpleType? c with
  | some name=>(some (ofText name),s)
  | none=>
   match c with
   | 0x0f=>around "Ptr<" ">"
   | 0x10=>around "ref " ""
   | 0x1d=>around "" "[]"
   | 0x11 | 0x12=>
    let (coded,s):=readUnsigned s
    (t.typeName? (fun s=>(t.typeAt ofClass depth [] s).1) coded,s)
   | 0x13=>
    let (k,s):=readUnsigned s
    (ofClass[k]?,s)
   | 0x1e=>
    let (k,s):=readUnsigned s
    (ofMethod[k]?,s)
   | 0x14=>
    match read s with
    | (none,s)=>(none,s)
    | (some type,s)=>
     let (text,s):=dimensions s
     (text.map fun b=>(type.push 91++b).push 93,s)
   | 0x15=>
    match read s with
    | (none,s)=>(none,s)
    | (some type,s)=>
     let (count,s):=readUnsigned s
     if 1000<count then (none,s)
     else
      let (arguments,s):=typeList read (ofText ",") count s
      (some ((type.push 60++arguments).push 62),s)
   | 0x1b=>
    match s with
    | []=>(none,[])
    | _::s=>
     let (count,s):=readUnsigned s
     if 2000<count then (none,s)
     else
      match read s with
      | (none,s)=>(none,s)
      | (some result,s)=>
       let (arguments,s):=typeList read (ofText ", ") count s
       (some (ofText "FnPtr<"++result.push 40++arguments++ofText ")>"),s)
   | 0x1f | 0x20=>
    let (_,s):=readUnsigned s
    read s
   | _=>(none,s)
def nameOf? (t:Types)(ofClass:List Bytes)(coded:Nat):Option Bytes:=
 t.typeName? (fun s=>(t.typeAt ofClass signatureDepth [] s).1) coded
end Types
end PatternScan.Dotnet
