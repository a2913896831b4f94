import PatternScan.Dotnet.Contents
import PatternScan.Module.Pe
namespace PatternScan.Module.Dotnet
open PatternScan.Dotnet
def versionDeclarations:Object:=
 .record [("major",.noInteger),("minor",.noInteger),("build_number",.noInteger),("revision_number",.noInteger)]
def methodDeclarations:Object:=
 .record [("generic_parameters",.arrayOf .noText),("number_of_generic_parameters",.noInteger),
   ("parameters",.arrayOf (.record [("name",.noText),("type",.noText)])),
   ("number_of_parameters",.noInteger),("return_type",.noText),("abstract",.noInteger),
   ("final",.noInteger),("virtual",.noInteger),("static",.noInteger),("visibility",.noText),("name",.noText)]
def classDeclarations:Object:=
 .record [("fullname",.noText),("name",.noText),("namespace",.noText),("visibility",.noText),
   ("type",.noText),("abstract",.noInteger),("sealed",.noInteger),
   ("number_of_generic_parameters",.noInteger),("generic_parameters",.arrayOf .noText),
   ("number_of_base_types",.noInteger),("base_types",.arrayOf .noText),
   ("number_of_methods",.noInteger),("methods",.arrayOf methodDeclarations)]
def declarations:Object:=
 .record [("is_dotnet",.noInteger),("version",.noText),("module_name",.noText),("streams",.arrayOf
    (.record [("name",.noText),("offset",.noInteger),("size",.noInteger)])),
   ("number_of_streams",.noInteger),("guids",.arrayOf .noText),("number_of_guids",.noInteger),
   ("resources",.arrayOf (.record [("offset",.noInteger),("length",.noInteger),("name",.noText)])),
   ("number_of_resources",.noInteger),("classes",.arrayOf classDeclarations),("number_of_classes",.noInteger),
   ("assembly_refs",.arrayOf (.record
     [("version",versionDeclarations),("public_key_or_token",.noText),("name",.noText)])),
   ("number_of_assembly_refs",.noInteger),
   ("assembly",.record [("version",versionDeclarations),("name",.noText),("culture",.noText)]),
   ("modulerefs",.arrayOf .noText),("number_of_modulerefs",.noInteger),
   ("user_strings",.arrayOf .noText),("number_of_user_strings",.noInteger),
   ("typelib",.noText),("constants",.arrayOf .noText),("number_of_constants",.noInteger),
   ("field_offsets",.arrayOf .noInteger),("number_of_field_offsets",.noInteger)]
def flag (b:Bool):Object:=.integer (if b then 1 else 0)
def word (s:String):Object:=.ofBytes (Bytes.ofText s)
def fillCounted {α:Type}(array count:String)(make:α→Object→Object)(items:List α)(o:Object):Object:=
 (o.modifyMember array (·.withMade (items.map make))).setMember count (.ofNat items.length)
def fillTexts (array count:String)(items:List Bytes)(o:Object):Object:=
 fillCounted array count (fun b _=>.ofBytes b) items o
def fillSome {α:Type}(fill:α→Object→Object)(x:Option α)(o:Object):Object:=
 x.elim o fun a=>fill a o
def fillVersion (v:AssemblyVersion)(o:Object):Object:=
 o.modifyMember "version" (·.setMembers
  [("major",.ofNat v.major),("minor",.ofNat v.minor),("build_number",.ofNat v.build),
   ("revision_number",.ofNat v.revision)])
def fillParameter (p:Parameter)(o:Object):Object:=
 o.setMembers [("name",.text p.name),("type",.ofBytes p.type)]
def fillMethod (m:Method)(o:Object):Object:=
 let o:=fillTexts "generic_parameters" "number_of_generic_parameters" m.generics o
 let o:=fillSome (fillCounted "parameters" "number_of_parameters" fillParameter) m.parameters o
 o.setMembers [("return_type",if m.isConstructor then .noText else .ofBytes m.returnType),
   ("abstract",flag m.isAbstract),("final",flag m.isFinal),("virtual",flag m.isVirtual),
   ("static",flag m.isStatic),("visibility",word m.visibility),("name",.ofBytes m.name)]
def fillClass (c:Dotnet.Class)(o:Object):Object:=
 let d:=c.definition
 let o:=o.setMembers [("fullname",.text c.fullName),("name",.ofBytes c.name),("namespace",.text c.space),
   ("visibility",word d.visibility),("type",word (if d.isInterface then "interface" else "class")),
   ("abstract",flag d.isAbstract),("sealed",flag d.isSealed)]
 let o:=fillTexts "generic_parameters" "number_of_generic_parameters" c.generics o
 let o:=fillTexts "base_types" "number_of_base_types" c.bases o
 fillSome (fillCounted "methods" "number_of_methods" fillMethod) c.methods o
def fillResources (items:List ManifestResource)(o:Object):Object:=
 let make (r:ManifestResource):Option (Object→Object):=
  if r.name.isNone&&r.place.isNone then none
  else
   some fun o=>(fillSome (fun (place:Int×Nat) o=>
     o.setMembers [("offset",.ofInt place.1),("length",.ofNat place.2)])
    r.place o).setMember "name" (.text r.name)
 (o.modifyMember "resources" (·.withSome (items.map make))).setMember "number_of_resources" (.ofNat items.length)
def fillAssembly (a:Assembly)(o:Object):Object:=
 o.modifyMember "assembly" fun o=>
  (fillVersion a.version o).setMembers [("name",.text a.name),("culture",.text a.culture)]
def fillAssemblyRef (a:AssemblyRef)(o:Object):Object:=
 (fillVersion a.version o).setMembers [("public_key_or_token",.text a.key),("name",.text a.name)]
def fillContents (t:TableContents)(o:Object):Object:=
 let o:=o.setMembers [("module_name",.text t.moduleName),("typelib",.text t.typeLibrary)]
 let o:=fillSome fillAssembly t.assembly o
 let o:=fillSome (fillCounted "assembly_refs" "number_of_assembly_refs" fillAssemblyRef) t.assemblyRefs o
 let o:=fillSome (fillTexts "modulerefs" "number_of_modulerefs") t.moduleRefs o
 let o:=fillSome fillResources t.resources o
 let o:=fillSome (fillTexts "constants" "number_of_constants") t.constants o
 let o:=fillSome (fillCounted "field_offsets" "number_of_field_offsets" fun (n:Nat) _=>.ofNat n) t.fieldOffsets o
 fillSome (fillCounted "classes" "number_of_classes" fillClass) t.classes o
def fillStream (s:Stream)(o:Object):Object:=
 o.setMembers [("name",.ofBytes s.name),("offset",.ofNat s.offset),("size",.ofNat s.size)]
def fillProgram (p:Program)(o:Object):Object:=
 let o:=o.setMember "version" (.text p.version)
 let o:=fillSome (fillCounted "streams" "number_of_streams" fillStream) p.streams o
 let o:=fillSome (fillCounted "guids" "number_of_guids" fun s _=>word s) p.guids o
 let o:=fillSome fillContents p.contents o
 fillSome (fillTexts "user_strings" "number_of_user_strings") p.userTexts o
def load (file:Option Pe.File):Object:=
 match file with
 | none=>declarations
 | some f=>
  match Metadata.find? f with
  | none=>declarations.setMember "is_dotnet" (flag false)
  | some m=>fillProgram (.ofMetadata m) (declarations.setMember "is_dotnet" (flag true))
end PatternScan.Module.Dotnet
