import PatternScan.Dotnet.Types
namespace PatternScan.Dotnet
open Bytes
structure Parameter where
 name:Option Bytes
 type:Bytes
structure Method where
 name:Bytes
 flags:Nat
 generics:List Bytes
 parameters:Option (List Parameter)
 returnType:Bytes
namespace Method
def visibility (m:Method):String:=
 match m.flags%8 with
 | 2=>"private protected"
 | 3=>"internal"
 | 4=>"protected"
 | 5=>"protected internal"
 | 6=>"public"
 | _=>"private"
def isStatic (m:Method):Bool:=m.flags.testBit 4
def isFinal (m:Method):Bool:=m.flags.testBit 5
def isVirtual (m:Method):Bool:=m.flags.testBit 6
def isAbstract (m:Method):Bool:=m.flags.testBit 10
def isConstructor (m:Method):Bool:=
 m.name==ofText ".ctor" || m.name==ofText ".cctor"
end Method
structure Class where
 definition:TypeDef
 name:Bytes
 space:Option Bytes
 fullName:Option Bytes
 generics:List Bytes
 bases:List Bytes
 methods:Option (List Method)
namespace Types
/-- The names of the generic parameters of an owner.  There are none if one of the names cannot be
read. -/
def genericsOf (t:Types)(owner:Nat):List Bytes:=
 let names:=(t.generics.filter (·.1==owner)).map fun (_,name)=>t.tables.text? name
 let read:=names.filterMap fun n=>n.filter (!·.isEmpty)
 if read.length==names.length then read else []
def basesOf (t:Types)(generics:List Bytes)(n:Nat)(d:TypeDef):List Bytes:=
 let interfaces:=(t.interfaces.filter (·.1==n)).map (·.2)
 (d.parent::interfaces).filterMap (t.nameOf? generics)
def parameterLimit:Nat:=2000
def methodLimit:Nat:=20000
def parameterName? (t:Types)(name:Field)(first k:Nat):Option (Option Bytes):=
 let n:=first+k
 if 1≤n&&n≤t.tables.rows .param then
  (t.tables.row? .param n).map (t.tables.name? name)
 else some (some (ofText ("P_"++toString k)))
def parametersFrom (t:Types)(name:Field)(ofClass ofMethod:List Bytes)(first:Nat):
 List Nat→List UInt8→Option (List Parameter)
 | [],_=>some []
 | k::rest,s=>
  match t.parameterName? name first k,t.typeAt ofClass signatureDepth ofMethod s with
  | some name',(some type,s)=>
   (parametersFrom t name ofClass ofMethod first rest s).map (⟨name',type⟩::·)
  | _,_=>none
structure MethodFields where
 flags:Field
 name:Field
 signature:Field
 parameters:Field
 parameterName:Field
def methodFields (t:Types):MethodFields:=
 { flags:=t.tables.rowField .method 2
   name:=t.tables.rowField .method 3
   signature:=t.tables.rowField .method 4
   parameters:=t.tables.rowField .method 5
   parameterName:=t.tables.rowField .param 2 }

/-- The method with a number. A signature has flags, perhaps a number of generic parameters, the number of parameters,
and the types of result and parameters. -/
def method? (t:Types)(c:MethodFields)(ofClass:List Bytes)(n:Nat):Option Method:=do
 let i ← t.tables.row? .method n
 let name ← (t.tables.name? c.name i).filter (!·.isEmpty)
 let (start,length) ← t.tables.blob? (t.tables.get c.signature i)
 let ofMethod:=t.genericsOf (2*n+1)
 match (t.tables.file.data.slice start length).toList with
 | flags::s=>
  if length<3 then none
  else
   let s:=if flags &&& 0x10==0 then s else (readUnsigned s).2
   let (count,s):=readUnsigned s
   match t.typeAt ofClass signatureDepth ofMethod s with
   | (none,_)=>none
   | (some result,s)=>
    let first:=t.tables.get c.parameters i
    let method (parameters:Option (List Parameter)):Method:=
     { name:=name
       flags:=t.tables.get c.flags i
       generics:=ofMethod
       parameters:=parameters
       returnType:=result }
    if parameterLimit<count then none
    else if first==0 then some (method none)
    else
     (t.parametersFrom c.parameterName ofClass ofMethod first (List.range count) s).map fun l=>method (some l)
 | []=>none

/-- The methods of a type end where those of the next type start, and the last type has all that are left. -/
def methodCount (t:Types)(n:Nat)(d:TypeDef):Nat:=
 if n<t.typeDefs.size then
  match numbered? t.typeDefs (n+1) with
  | some next=>next.firstMethod-d.firstMethod
  | none=>0
 else t.tables.rows .method+1-d.firstMethod
def methodsOf (t:Types)(c:MethodFields)(generics:List Bytes)(n:Nat)(d:TypeDef):Option (List Method):=
 let count:=t.methodCount n d
 if d.firstMethod==0||methodLimit<count then none
 else
  let count:=min count (t.tables.rows .method+1-d.firstMethod)
  some ((List.range' d.firstMethod count).filterMap (t.method? c generics))
def class? (t:Types)(c:MethodFields)(n:Nat)(d:TypeDef):Option Class:=
 match t.tables.text? d.name with
 | none=>none
 | some name=>
  if (plainName name).isEmpty||name==moduleClass then none
  else
   let space:=t.spaceOf n d
   let generics:=t.genericsOf (2*n)
   some
    { definition:=d
      name:=plainName name
      space:=space
      fullName:=fullName (some name) space
      generics:=generics
      bases:=t.basesOf generics n d
      methods:=t.methodsOf c generics n d }
def classes (t:Types):List Class:=
 let fields:=t.methodFields
 t.typeDefs.toList.zipIdx.filterMap fun (d,k)=>d.bind (t.class? fields (k+1))
end Types
end PatternScan.Dotnet
