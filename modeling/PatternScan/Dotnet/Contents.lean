import PatternScan.Dotnet.Class
namespace PatternScan.Dotnet
structure AssemblyVersion where
 major:Nat
 minor:Nat
 build:Nat
 revision:Nat
 deriving DecidableEq
structure Assembly where
 version:AssemblyVersion
 name:Option Bytes
 culture:Option Bytes
structure AssemblyRef where
 version:AssemblyVersion
 key:Option Bytes
 name:Option Bytes
structure ManifestResource where
 name:Option Bytes
 place:Option (Int×Nat)
namespace Tables
def versionAt (t:Tables)(i:Nat):AssemblyVersion:=
 ⟨t.file.half i,t.file.half (i+2),t.file.half (i+4),t.file.half (i+6)⟩
def moduleName? (t:Tables):Option Bytes:=
 (t.place? .module).bind fun p=>t.name? (t.field .module 1) p.start
def constants? (t:Tables):Option (List Bytes):=
 (t.place? .constant).map fun p=>
  let value:=t.field .constant 3
  (p.leadingRows t.file p.rowSize).filterMap fun i=>
   if t.file.half i != 0x0e then none
   else
    (t.blob? (t.get value i)).bind fun (start,length)=>
     if start+length<t.file.size then some (t.file.data.slice start length) else none
def moduleRefs? (t:Tables):Option (List Bytes):=
 (t.place? .moduleRef).map fun p=>
  (p.leadingRows t.file 4).filterMap (t.name? (t.field .moduleRef 0))
def fieldOffsets? (t:Tables):Option (List Nat):=
 (t.place? .fieldAddress).map fun p=>
  let address:=t.field .fieldAddress 0
  (p.leadingRows t.file 8).filterMap fun i=>t.file.offset? (t.get address i)
def assembly? (t:Tables):Option Assembly:=
 (t.place? .assembly).map fun p=>
  { version:=t.versionAt (p.start+(t.field .assembly 1).start)
    name:=t.name? (t.field .assembly 7) p.start
    culture:=(t.name? (t.field .assembly 8) p.start).filter (!·.isEmpty) }
def assemblyRefAt (t:Tables)(key name:Field)(i:Nat):AssemblyRef:=
 let version:=t.versionAt i
 match t.blob? (t.get key i) with
 | none=>⟨version,none,none⟩
 | some (start,length)=>
  ⟨version,if length==0 then none else some (t.file.data.slice start length),t.name? name i⟩
def assemblyRefs? (t:Tables):Option (List AssemblyRef):=
 (t.place? .assemblyRef).map fun p=>
  (p.leadingRows t.file p.rowSize).map (t.assemblyRefAt (t.field .assemblyRef 5) (t.field .assemblyRef 6))
def resourceAt (t:Tables)(base:Int)(name home:Field)(i:Nat):ManifestResource:=
 let offset:=base+t.file.word i
 let here:=t.get home i==0&&0≤offset&&t.file.fits offset.toNat 4
 ⟨t.name? name i,if here then some (offset+4,t.file.word offset.toNat) else none⟩
def resources? (t:Tables)(base:Int):Option (List ManifestResource):=
 (t.place? .manifestResource).map fun p=>
  (p.leadingRows t.file p.rowSize).map (t.resourceAt base (t.field .manifestResource 2) (t.field .manifestResource 3))
inductive AttributeRow where
 | other | broken
 | identifier (text:Bytes)
def attributeText? (t:Tables)(index:Nat):Option Bytes:=
 let d:=t.file.data
 (t.blob? index).bind fun (start,length)=>
  let n:=(d.byteAt (start+2)).toNat
  let first:=d.byteAt (start+3)
  if index==0||length<3||t.file.size ≤ start+length||t.file.half start != 1
   || t.file.size<start+3+n then none
  else if first==0xFF then some ByteArray.empty
  else some (t.file.textAt (start+3) n)
structure AttributeFields where
 members:Place
 types:Place
 parent:Field
 kind:Field
 value:Field
 owner:Field
 typeName:Field
def attributeFields (t:Tables)(members types:Place):AttributeFields:=
 { members:=members
   types:=types
   parent:=t.field .customAttribute 0
   kind:=t.field .customAttribute 1
   value:=t.field .customAttribute 2
   owner:=⟨0,t.widths.column (.row .memberRef)⟩
   typeName:=t.field .typeRef 1 }

/-- Looks at a row of attributes. It has to be about the assembly, and its constructor a member of a type with the
right name or without a readable one. -/
def attributeRow (t:Tables)(a:AttributeFields)(i:Nat):AttributeRow:=
 let kind:=t.get a.kind i
 if t.get a.parent i%32 != 0x0E||kind%8 != 3 then .other
 else
  let member:=a.members.start+a.members.rowSize*(kind/8-1)%0x100000000
  if !t.file.fits member a.members.rowSize then .broken
  else
   let owner:=t.get a.owner member
   if owner%8 != 1 then .other
   else
    let type:=a.types.start+a.types.rowSize*(owner/8-1)%0x100000000
    if !t.file.fits type a.types.rowSize then .broken
    else
     let named:=(t.name? a.typeName type).all fun name=>
      Bytes.startsWith name (Bytes.ofText "GuidAttribute")
     if named then (t.attributeText? (t.get a.value i)).elim .other .identifier else .other
def lastIdentifier (t:Tables)(a:AttributeFields)(last:Option Bytes):List Nat→Option Bytes
 | []=>last
 | i::rest=>
  match t.attributeRow a i with
  | .other=>lastIdentifier t a last rest
  | .broken=>last
  | .identifier text=>lastIdentifier t a (some text) rest
def typeLibrary? (t:Tables):Option Bytes:=
 match t.place? .customAttribute,t.place? .memberRef,t.place? .typeRef with
 | some p,some members,some types=>
  t.lastIdentifier (t.attributeFields members types) none (p.leadingRows t.file p.rowSize)
 | _,_,_=>none
end Tables
structure TableContents where
 moduleName:Option Bytes
 typeLibrary:Option Bytes
 assembly:Option Assembly
 assemblyRefs:Option (List AssemblyRef)
 moduleRefs:Option (List Bytes)
 resources:Option (List ManifestResource)
 constants:Option (List Bytes)
 fieldOffsets:Option (List Nat)
 classes:Option (List Class)
structure Program where
 version:Option Bytes
 streams:Option (List Stream)
 guids:Option (List String)
 userTexts:Option (List Bytes)
 contents:Option TableContents
namespace TableContents
def ofTables (t:Tables)(base:Int):TableContents:=
 { moduleName:=t.moduleName?
   typeLibrary:=t.typeLibrary?
   assembly:=t.assembly?
   assemblyRefs:=t.assemblyRefs?
   moduleRefs:=t.moduleRefs?
   resources:=t.resources? base
   constants:=t.constants?
   fieldOffsets:=t.fieldOffsets?
   classes:=if t.complete then some (Types.ofTables t).classes else none }
end TableContents
namespace Program
def tables? (f:Pe.File)(streams:List Stream):Option Tables:=do
 let tables ← streams.find? (·.isNamed ["#~","#-"])
 let strings ← streams.find? (·.isNamed ["#Strings"])
 let blobs ← streams.find? (·.isNamed ["#Blob"])
 Tables.ofStreams? f tables strings blobs
def ofMetadata (m:Metadata):Program:=
 let f:=m.file
 let streams:=m.streams?
 let all:=streams.getD []
 let base:Int:=(f.offset? (f.word (m.runtime+24))).elim (-1) fun n=>n
 { version:=m.version?
   streams:=streams
   guids:=(all.reverse.find? (·.isNamed ["#GUID"])).map (Dotnet.guids f)
   userTexts:=(all.find? (·.isNamed ["#US"])).bind (userTexts? f)
   contents:=(tables? f all).map fun t=>.ofTables t base }
end Program
end PatternScan.Dotnet
