import PatternScan.Dex.File
import PatternScan.Module.Call
namespace PatternScan.Module.Dex
open PatternScan.Dex
def constants:List (String×Nat):=
 [("ENDIAN_CONSTANT",0x12345678),("REVERSE_ENDIAN_CONSTANT",0x78563412),("NO_INDEX",0xffffffff)] ++
 under "ACC_" [("PUBLIC",1),("PRIVATE",2),("PROTECTED",4),("STATIC",8),("FINAL",0x10),
  ("SYNCHRONIZED",0x20),("VOLATILE",0x40),("BRIDGE",0x40),("TRANSIENT",0x80),("VARARGS",0x80),
  ("NATIVE",0x100),("INTERFACE",0x200),("ABSTRACT",0x400),("STRICT",0x800),("SYNTHETIC",0x1000),
  ("ANNOTATION",0x2000),("ENUM",0x4000),("CONSTRUCTOR",0x10000),("DECLARED_SYNCHRONIZED",0x20000)] ++
 under "TYPE_" [("HEADER_ITEM",0),("STRING_ID_ITEM",1),("TYPE_ID_ITEM",2),("PROTO_ID_ITEM",3),
  ("FIELD_ID_ITEM",4),("METHOD_ID_ITEM",5),("CLASS_DEF_ITEM",6),("CALL_SITE_ID_ITEM",7),
  ("METHOD_HANDLE_ITEM",8),("MAP_LIST",0x1000),("TYPE_LIST",0x1001),
  ("ANNOTATION_SET_REF_LIST",0x1002),("ANNOTATION_SET_ITEM",0x1003),("CLASS_DATA_ITEM",0x2000),
  ("CODE_ITEM",0x2001),("STRING_DATA_ITEM",0x2002),("DEBUG_INFO_ITEM",0x2003),
  ("ANNOTATION_ITEM",0x2004),("ENCODED_ARRAY_ITEM",0x2005),("ANNOTATIONS_DIRECTORY_ITEM",0x2006)]
def headerFields:List String:=
 ["file_size","header_size","endian_tag","link_size","link_offset","map_offset",
  "string_ids_size","string_ids_offset","type_ids_size","type_ids_offset","proto_ids_size",
  "proto_ids_offset","field_ids_size","field_ids_offset","method_ids_size",
  "method_ids_offset","class_defs_size","class_defs_offset","data_size","data_offset"]
def magicNames:List String:=
 ["DEX_FILE_MAGIC_035","DEX_FILE_MAGIC_036","DEX_FILE_MAGIC_037","DEX_FILE_MAGIC_038", "DEX_FILE_MAGIC_039"]
def declarations:Object:=
 let integers (names:List String):List (String×Object):=names.map fun n=>(n,.noInteger)
 let texts (names:List String):List (String×Object):=names.map fun n=>(n,.noText)
 let table (name:String)(members:List (String×Object)):String×Object:=
  (name,.arrayOf (.record members))
 let code:Object:=.record (integers ["registers_size","ins_size","outs_size","tries_size","debug_info_off",
   "insns_size"]++texts ["insns"])
 .record (texts magicNames++integers (constants.map (·.1))++[("header",.record
    ([("magic",.noText),("checksum",.noInteger),("signature",.noText)]++integers headerFields)),
    table "string_ids" [("offset",.noInteger),("size",.noInteger),("value",.noText)],
    table "type_ids" (integers ["descriptor_idx"]),
    table "proto_ids" (integers ["shorty_idx","return_type_idx","parameters_offset"]),
    table "field_ids" (integers ["class_idx","type_idx","name_idx"]),
    table "method_ids" (integers ["class_idx","proto_idx","name_idx"]),
    table "class_defs" (integers ["class_idx","access_flags","super_class_idx","interfaces_offset","source_file_idx",
      "annotations_offset","class_data_offset","static_values_offset"]),
    table "class_data_item" (integers ["static_fields_size","instance_fields_size","direct_methods_size",
      "virtual_methods_size"]),
    ("map_list",.record [("size",.noInteger),table "map_item" (integers ["type","unused","size","offset"])]),
    ("number_of_fields",.noInteger),table "field" (texts ["class_name","name","proto"] ++
     integers ["static","instance","field_idx_diff","access_flags"]),("has_method",overloaded .noInteger
     [("s",.dex .hasMethod),("ss",.dex .hasMethodOfClass),("r",.dex .hasMethodMatching),
      ("rr",.dex .hasMethodOfClassMatching)]),
    ("has_class",overloaded .noInteger [("s",.dex .hasClass),("r",.dex .hasClassMatching)]),
    ("number_of_methods",.noInteger),table "method" (texts ["class_name","name","proto"] ++
     integers ["direct","virtual","method_idx_diff","access_flags","code_off"] ++
     [("code_item",code)])])
def file? (blocks:List Scan.SourceBlock):Option File:=
 blocks.findSome? fun b=>b.data.bind File.read?
def fillHeader (f:File)(o:Object):Object:=
 o.setMembers ([("magic",.ofBytes (f.data.slice 0 8)),("checksum",.ofNat (f.word 8)),
   ("signature",.ofBytes (f.data.slice 12 20))] ++
   headerFields.zipIdx.map fun (n,i)=>(n,.ofNat (f.word (32+4*i))))
def fillNumbers (names:List String)(values:List Nat)(o:Object):Object:=
 o.setMembers (names.zip (values.map Object.ofNat))
def fillNames (m:MemberNames)(o:Object):Object:=
 o.setMembers [("class_name",.text m.owner),("name",.text m.name),("proto",.text m.prototype)]
def fillField (m:Member)(o:Object):Object:=
 fillNames m.names (fillNumbers ["static","instance","field_idx_diff","access_flags"]
  [if m.first then 1 else 0,if m.first then 0 else 1,m.difference,m.access] o)
def fillCode (c:Code)(o:Object):Object:=
 (fillNumbers ["registers_size","ins_size","outs_size","tries_size","debug_info_off","insns_size"]
  [c.registers,c.ins,c.outs,c.tries,c.debugInfo,c.size] o).setMember "insns"
  (.text c.instructions)
def fillMethod (m:Member)(o:Object):Object:=
 let o:=fillNames m.names (fillNumbers ["direct","virtual","method_idx_diff","access_flags","code_off"]
  [if m.first then 1 else 0,if m.first then 0 else 1,m.difference,m.access,m.codeOffset] o)
 match m.code with
 | some c=>o.modifyMember "code_item" (fillCode c)
 | none=>o
def fill (f:File)(o:Object):Object:=
 let numbers (o:Object)(name:String)(fields:List String)(rows:List (List Nat)):
  Object:=
  o.modifyMember name (·.withMade (rows.map (fillNumbers fields)))
 let o:=o.modifyMember "header" (fillHeader f)
 let text (t:Text)(o:Object):Object:=
  o.setMembers [("offset",.ofNat t.offset),("size",.ofNat t.value.size),("value",.ofBytes t.value)]
 let o:=o.modifyMember "string_ids" (·.withSome (f.strings.toList.map fun t=>t.map text))
 let o:=numbers o "type_ids" ["descriptor_idx"] (f.types.toList.map ([·]))
 let o:=numbers o "proto_ids" ["shorty_idx","return_type_idx","parameters_offset"]
  (f.prototypes.toList.map fun p=>[p.shorty,p.returnType,p.parameters])
 let o:=numbers o "field_ids" ["class_idx","type_idx","name_idx"]
  (f.fieldIds.toList.map fun m=>[m.owner,m.type,m.name])
 let o:=numbers o "method_ids" ["class_idx","proto_idx","name_idx"]
  (f.methodIds.toList.map fun m=>[m.owner,m.type,m.name])
 let o:=o.modifyMember "map_list" fun o=>
  numbers (match f.mapSize with
   | some n=>o.setMember "size" (.ofNat n)
   | none=>o) "map_item" ["type","unused","size","offset"]
   (f.map.toList.map fun m=>[m.type,m.unused,m.size,m.offset])
 let o:=numbers o "class_defs" ["class_idx","access_flags","super_class_idx","interfaces_offset","source_file_idx",
   "annotations_offset","class_data_offset","static_values_offset"]
  (f.classes.toList.map fun c=>
   [c.type,c.access,c.superclass,c.interfaces,c.sourceFile,c.annotations,c.data,c.staticValues])
 let o:=numbers o "class_data_item"
  ["static_fields_size","instance_fields_size","direct_methods_size","virtual_methods_size"]
  (f.classData.toList.map fun c=>
   [c.staticFields,c.instanceFields,c.directMethods,c.virtualMethods])
 let o:=o.modifyMember "field" (·.withMade (f.fields.toArray.toList.map fillField))
 let o:=o.modifyMember "method" (·.withMade (f.methods.toArray.toList.map fillMethod))
 if f.complete then
  o.setMembers [("number_of_methods",.ofNat f.methods.known.size),("number_of_fields",.ofNat f.fields.known.size)]
 else o
def load (f:Option File):Object:=
 let o:=declarations.setMembers (constants.map (fun (n,v)=>(n,.ofNat v))++magicNames.zip (magics.map Object.ofBytes))
 f.elim o (fill · o)
def call (f:DexFunction)(file:Option File)(c:Call):Object:=
 match file with
 | none=>.noInteger
 | some file=>
  let equal (n:Nat)(b:Bytes):Bool:=Bytes.untilNul b==c.name n
  let any (test:MemberNames→Bool):Object:=
   if file.complete then truth (file.methods.known.any fun m=>test m.names) else .noInteger
  match f with
  | .hasMethod=>any fun m=>m.name.any (equal 1)
  | .hasMethodOfClass=>any fun m=>m.owner.all (equal 1)&&m.name.any (equal 2)
  | .hasMethodMatching=>any fun m=>m.name.any (c.isMatch 1)
  | .hasMethodOfClassMatching=>
   any fun m=>m.owner.all (c.isMatch 1)&&m.name.any (c.isMatch 2)
  | .hasClass=>any fun m=>m.owner.any (equal 1)
  | .hasClassMatching=>any fun m=>m.owner.any (c.isMatch 1)
end PatternScan.Module.Dex
