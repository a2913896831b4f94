import PatternScan.Digest.Hashes
import PatternScan.Digest.Tlsh
import PatternScan.Elf.File
import PatternScan.Module.Call
namespace PatternScan.Module.Elf
open PatternScan.Elf Bytes Elf.File
def headerConstants:List (String×Nat):=
 under "ET_" [("NONE",0),("REL",1),("EXEC",2),("DYN",3),("CORE",4)] ++
 under "EM_" [("NONE",0),("M32",1),("SPARC",2),("386",3),("68K",4),("88K",5),("860",7),
  ("MIPS",8),("MIPS_RS3_LE",0xa),("PPC",0x14),("PPC64",0x15),("ARM",0x28),("X86_64",0x3e),("AARCH64",0xb7)] ++
 under "SHT_" [("NULL",0),("PROGBITS",1),("SYMTAB",2),("STRTAB",3),("RELA",4),("HASH",5),
  ("DYNAMIC",6),("NOTE",7),("NOBITS",8),("REL",9),("SHLIB",0xa),("DYNSYM",0xb)] ++
 under "SHF_" [("WRITE",1),("ALLOC",2),("EXECINSTR",4)]
def segmentConstants:List (String×Nat):=
 under "PT_" [("NULL",0),("LOAD",1),("DYNAMIC",2),("INTERP",3),("NOTE",4),("SHLIB",5),
  ("PHDR",6),("TLS",7),("GNU_EH_FRAME",0x6474e550),("GNU_STACK",0x6474e551)] ++
 under "DT_" [("NULL",0),("NEEDED",1),("PLTRELSZ",2),("PLTGOT",3),("HASH",4),("STRTAB",5),
  ("SYMTAB",6),("RELA",7),("RELASZ",8),("RELAENT",9),("STRSZ",0xa),("SYMENT",0xb),("INIT",0xc),
  ("FINI",0xd),("SONAME",0xe),("RPATH",0xf),("SYMBOLIC",0x10),("REL",0x11),("RELSZ",0x12),
  ("RELENT",0x13),("PLTREL",0x14),("DEBUG",0x15),("TEXTREL",0x16),("JMPREL",0x17),
  ("BIND_NOW",0x18),("INIT_ARRAY",0x19),("FINI_ARRAY",0x1a),("INIT_ARRAYSZ",0x1b),
  ("FINI_ARRAYSZ",0x1c),("RUNPATH",0x1d),("FLAGS",0x1e),("ENCODING",0x20)] ++
 under "STT_" [("NOTYPE",0),("OBJECT",1),("FUNC",2),("SECTION",3),("FILE",4),("COMMON",5),("TLS",6)] ++
 [("STB_LOCAL",0),("STB_GLOBAL",1),("STB_WEAK",2),("PF_X",1),("PF_W",2),("PF_R",4)]
def declarations:Object:=
 let integers (names:List String):List (String×Object):=names.map fun n=>(n,.noInteger)
 let symbols:Object:=
  .arrayOf (.record ([("name",.noText)]++integers ["value","size","type","bind","shndx"]))
 .record (integers (headerConstants.map (·.1)) ++
   integers ["type","machine","entry_point","number_of_sections","sh_offset",
    "sh_entry_size","number_of_segments","ph_offset","ph_entry_size"] ++
   [("sections",.arrayOf (.record (integers ["type","flags","address"]++[("name",.noText)] ++
     integers ["size","offset"])))] ++
   integers (segmentConstants.map (·.1)) ++
   [("segments",.arrayOf (.record (integers ["type","flags","offset","virtual_address","physical_address","file_size",
     "memory_size","alignment"]))),("dynamic_section_entries",.noInteger),
    ("dynamic",.arrayOf (.record (integers ["type","val"]))),("symtab_entries",.noInteger),("symtab",symbols),
    ("dynsym_entries",.noInteger),("dynsym",symbols),
    ("telfhash",overloaded .noText [("",.elf .similarityHash)]),
    ("import_md5",overloaded .noText [("",.elf .importHash)])])
def file? (blocks:List Scan.SourceBlock)(memory:Bool):Option File:=
 blocks.findSome? fun b=>b.data.bind fun d=>read? d memory b.base
def fillSection (s:Section)(o:Object):Object:=
 o.setMembers [("type",.ofNat s.type),("flags",.ofNat s.flags),("address",.ofNat s.address),
   ("name",.text s.name),("size",.ofNat s.size),("offset",.ofNat s.offset)]
def fillSegment (s:Segment)(o:Object):Object:=
 o.setMembers [("type",.ofNat s.type),("flags",.ofNat s.flags),("offset",.ofNat s.offset),
   ("virtual_address",.ofNat s.virtualAddress),("physical_address",.ofNat s.physicalAddress),
   ("file_size",.ofNat s.fileSize),("memory_size",.ofNat s.memorySize),("alignment",.ofNat s.alignment)]
def fillDynamic (e:DynamicEntry)(o:Object):Object:=
 o.setMembers [("type",.ofNat e.tag),("val",.ofNat e.value)]
def fillSymbol (s:Symbol)(o:Object):Object:=
 o.setMembers [("name",.text s.name),("value",.ofNat s.value),("size",.ofNat s.size),
   ("type",.ofNat s.type),("bind",.ofNat s.binding),("shndx",.ofNat s.home)]
def fillSymbols (count list:String)(symbols:Option (List Symbol))(o:Object):Object:=
 match symbols with
 | none=>o
 | some l=>
  (o.setMember count (.ofNat l.length)).modifyMember list (·.withMade (l.map fillSymbol))
def fill (f:File)(o:Object):Object:=
 let h:=f.header
 let o:=o.setMembers [("type",.ofNat h.type),("machine",.ofNat h.machine),
   ("entry_point",f.entryPoint.elim .noInteger fun a=>.integer a.toInt64),
   ("number_of_sections",.ofNat h.sectionCount),("sh_offset",.ofNat h.sectionOffset),
   ("sh_entry_size",.ofNat h.sectionEntrySize),("number_of_segments",.ofNat h.segmentCount),
   ("ph_offset",.ofNat h.segmentOffset),("ph_entry_size",.ofNat h.segmentEntrySize),
   ("dynamic_section_entries",f.dynamicCount.elim .noInteger .ofNat)]
 let o:=o.modifyMember "sections" (·.withMade (f.sections.map fillSection))
 let o:=o.modifyMember "segments" (·.withMade (f.segments.map fillSegment))
 let o:=o.modifyMember "dynamic" (·.withMade (f.dynamic.map fillDynamic))
 fillSymbols "dynsym_entries" "dynsym" f.dynamicSymbols (fillSymbols "symtab_entries" "symtab" f.symbols o)
def load (f:Option File):Object:=
 let o:=declarations.setMembers ((headerConstants++segmentConstants).map fun (n,v)=>(n,.ofNat v))
 f.elim o (fill · o)
def call (f:ElfFunction)(file:Option File):Object:=
 match f with
 | .similarityHash=>
  match file.bind functionNames with
  | some b=>textResult (ofText ((Tlsh.digest? b).elim "" (·.text true)))
  | none=>.noText
 | .importHash=>
  match file.bind importedNames with
  | some b=>textResult (ofText (hex (Digest.md5 b)))
  | none=>.noText
end PatternScan.Module.Elf
