import PatternScan.Digest.Hashes
import PatternScan.Module.Call
import PatternScan.Pe.Image
namespace PatternScan.Module.Pe
open Bytes Pe.Library
def machineConstants:List (String×Nat):=
 under "MACHINE_" [("UNKNOWN",0),("AM33",0x1d3),("AMD64",0x8664),("ARM",0x1c0),("ARMNT",0x1c4),
  ("ARM64",0xaa64),("EBC",0xebc),("I386",0x14c),("IA64",0x200),("M32R",0x9041),("MIPS16",0x266),
  ("MIPSFPU",0x366),("MIPSFPU16",0x466),("POWERPC",0x1f0),("POWERPCFP",0x1f1),("R4000",0x166),
  ("SH3",0x1a2),("SH3DSP",0x1a3),("SH4",0x1a6),("SH5",0x1a8),("THUMB",0x1c2),("WCEMIPSV2",0x169),
  ("TARGET_HOST",1),("R3000",0x162),("R10000",0x168),("ALPHA",0x184),("SH3E",0x1a4),
  ("ALPHA64",0x284),("AXP64",0x284),("TRICORE",0x520),("CEF",0xcef),("CEE",0xc0ee)] ++
 under "SUBSYSTEM_" [("UNKNOWN",0),("NATIVE",1),("WINDOWS_GUI",2),("WINDOWS_CUI",3),("OS2_CUI",5),
  ("POSIX_CUI",7),("NATIVE_WINDOWS",8),("WINDOWS_CE_GUI",9),("EFI_APPLICATION",0xa),
  ("EFI_BOOT_SERVICE_DRIVER",0xb),("EFI_RUNTIME_DRIVER",0xc),("EFI_ROM_IMAGE",0xd),("XBOX",0xe),
  ("WINDOWS_BOOT_APPLICATION",0x10)] ++
 [("HIGH_ENTROPY_VA",0x20),("DYNAMIC_BASE",0x40),("FORCE_INTEGRITY",0x80),("NX_COMPAT",0x100),
  ("NO_ISOLATION",0x200),("NO_SEH",0x400),("NO_BIND",0x800),("APPCONTAINER",0x1000),
  ("WDM_DRIVER",0x2000),("GUARD_CF",0x4000),("TERMINAL_SERVER_AWARE",0x8000)]
def headerConstants:List (String×Nat):=
 [("RELOCS_STRIPPED",1),("EXECUTABLE_IMAGE",2),("LINE_NUMS_STRIPPED",4),("LOCAL_SYMS_STRIPPED",8),
  ("AGGRESIVE_WS_TRIM",0x10),("LARGE_ADDRESS_AWARE",0x20),("BYTES_REVERSED_LO",0x80),
  ("MACHINE_32BIT",0x100),("DEBUG_STRIPPED",0x200),("REMOVABLE_RUN_FROM_SWAP",0x400),
  ("NET_RUN_FROM_SWAP",0x800),("SYSTEM",0x1000),("DLL",0x2000),("UP_SYSTEM_ONLY",0x4000),
  ("BYTES_REVERSED_HI",0x8000)] ++
 under "IMAGE_DIRECTORY_ENTRY_" [("EXPORT",0),("IMPORT",1),("RESOURCE",2),("EXCEPTION",3),
  ("SECURITY",4),("BASERELOC",5),("DEBUG",6),("ARCHITECTURE",7),("COPYRIGHT",7),("GLOBALPTR",8),
  ("TLS",9),("LOAD_CONFIG",0xa),("BOUND_IMPORT",0xb),("IAT",0xc),("DELAY_IMPORT",0xd),("COM_DESCRIPTOR",0xe)] ++
 under "IMAGE_" [("NT_OPTIONAL_HDR32_MAGIC",0x10b),("NT_OPTIONAL_HDR64_MAGIC",0x20b),
  ("ROM_OPTIONAL_HDR_MAGIC",0x107)]
def sectionConstants:List (String×Nat):=
 under "SECTION_" [("NO_PAD",8),("CNT_CODE",0x20),("CNT_INITIALIZED_DATA",0x40),
  ("CNT_UNINITIALIZED_DATA",0x80),("LNK_OTHER",0x100),("LNK_INFO",0x200),("LNK_REMOVE",0x800),
  ("LNK_COMDAT",0x1000),("NO_DEFER_SPEC_EXC",0x4000),("GPREL",0x8000),("MEM_FARDATA",0x8000),
  ("MEM_PURGEABLE",0x20000),("MEM_16BIT",0x20000),("MEM_LOCKED",0x40000),("MEM_PRELOAD",0x80000)] ++
 under "SECTION_ALIGN_" [("1BYTES",0x100000),("2BYTES",0x200000),("4BYTES",0x300000),
  ("8BYTES",0x400000),("16BYTES",0x500000),("32BYTES",0x600000),("64BYTES",0x700000),
  ("128BYTES",0x800000),("256BYTES",0x900000),("512BYTES",0xa00000),("1024BYTES",0xb00000),
  ("2048BYTES",0xc00000),("4096BYTES",0xd00000),("8192BYTES",0xe00000),("MASK",0xf00000)] ++
 under "SECTION_" [("LNK_NRELOC_OVFL",0x1000000),("MEM_DISCARDABLE",0x2000000),
  ("MEM_NOT_CACHED",0x4000000),("MEM_NOT_PAGED",0x8000000),("MEM_SHARED",0x10000000),
  ("MEM_EXECUTE",0x20000000),("MEM_READ",0x40000000),("MEM_WRITE",0x80000000),("SCALE_INDEX",1)]
def resourceConstants:List (String×Nat):=
 under "RESOURCE_TYPE_" [("CURSOR",1),("BITMAP",2),("ICON",3),("MENU",4),("DIALOG",5),
  ("STRING",6),("FONTDIR",7),("FONT",8),("ACCELERATOR",9),("RCDATA",0xa),("MESSAGETABLE",0xb),
  ("GROUP_CURSOR",0xc),("GROUP_ICON",0xe),("VERSION",0x10),("DLGINCLUDE",0x11),("PLUGPLAY",0x13),
  ("VXD",0x14),("ANICURSOR",0x15),("ANIICON",0x16),("HTML",0x17),("MANIFEST",0x18)] ++
 under "IMAGE_DEBUG_TYPE_" [("UNKNOWN",0),("COFF",1),("CODEVIEW",2),("FPO",3),("MISC",4),
  ("EXCEPTION",5),("FIXUP",6),("OMAP_TO_SRC",7),("OMAP_FROM_SRC",8),("BORLAND",9),
  ("RESERVED10",0xa),("CLSID",0xb),("VC_FEATURE",0xc),("POGO",0xd),("ILTCG",0xe),("MPX",0xf),("REPRO",0x10)] ++
 under "IMPORT_" [("DELAYED",2),("STANDARD",1)]
def constants:List (String×Nat):=
 machineConstants++headerConstants++sectionConstants++resourceConstants
open PatternScan.Pe
def integers (names:List String):List (String×Object):=names.map fun n=>(n,.noInteger)
def texts (names:List String):List (String×Object):=names.map fun n=>(n,.noText)
def versionMember (name:String):String×Object:=(name,.record (integers ["major","minor"]))
def integerFunction (name:String)(overloads:List (String×PeFunction)):String×Object:=
 (name,overloaded .noInteger (overloads.map fun (letters,f)=>(letters,.pe f)))
def certificateMembers:List (String×Object):=
 texts ["thumbprint","issuer","subject"]++integers ["version"] ++
  texts ["algorithm","algorithm_oid","serial"]++integers ["not_before","not_after"]
def signatureMembers:List (String×Object):=
 let chain:=[("length_of_chain",.noInteger),("chain",.arrayOf (.record certificateMembers))]
 certificateMembers++integers ["verified"]++texts ["digest_alg","digest","file_digest"] ++
  integers ["number_of_certificates"] ++
  [("certificates",.arrayOf (.record certificateMembers)),
   ("signer_info",.record (texts ["program_name","digest","digest_alg"]++chain)),
   ("number_of_countersignatures",.noInteger),
   ("countersignatures",.arrayOf (.record (integers ["verified","sign_time"]++texts ["digest_alg","digest"]++chain))),
   integerFunction "valid_on" [("i",.validOn)]]
def libraryMembers:List (String×Object):=
 [("library_name",.noText),("number_of_functions",.noInteger),
  ("functions",.arrayOf (.record (texts ["name"]++integers ["ordinal","rva"])))]
def headerMembers:List (String×Object):=
 integers ["is_pe","machine","number_of_sections","timestamp","pointer_to_symbol_table",
  "number_of_symbols","size_of_optional_header","characteristics","entry_point",
  "entry_point_raw","image_base","number_of_rva_and_sizes","number_of_version_infos"] ++
  [("version_info",.dictionaryOf .noText),("version_info_list",.arrayOf (.record (texts ["key","value"])))] ++
  integers ["opthdr_magic","size_of_code","size_of_initialized_data",
   "size_of_uninitialized_data","base_of_code","base_of_data","section_alignment","file_alignment"] ++
  ["linker_version","os_version","image_version","subsystem_version"].map versionMember ++
  integers ["win32_version_value","size_of_image","size_of_headers","checksum"] ++
  [integerFunction "calculate_checksum" [("",.checksum)]] ++
  integers ["subsystem","dll_characteristics","size_of_stack_reserve","size_of_stack_commit",
   "size_of_heap_reserve","size_of_heap_commit","loader_flags"] ++
  [("data_directories",.arrayOf (.record (integers ["virtual_address","size"]))),
   ("sections",.arrayOf (.record (texts ["name","full_name"]++integers ["characteristics",
    "virtual_address","virtual_size","raw_data_offset","raw_data_size",
    "pointer_to_relocations","pointer_to_line_numbers","number_of_relocations","number_of_line_numbers"]))),
   ("overlay",.record (integers ["offset","size"])),
   ("rich_signature",.record (integers ["offset","length","key"]++texts ["raw_data","clear_data","version_data"] ++
    [integerFunction "version" [("i",.richVersion),("ii",.richVersionOfTool)],
     integerFunction "toolid" [("i",.richTool),("ii",.richToolOfVersion)]]))]
def functionMembers:List (String×Object):=
 [("imphash",overloaded .noText [("",.pe .importHash)]),
  integerFunction "section_index" [("s",.sectionNamed),("i",.sectionAt)],
  integerFunction "exports" [("s",.exportsName),("r",.exportsMatching),("i",.exportsOrdinal)],
  integerFunction "exports_index" [("s",.exportIndexOfName),("i",.exportIndexOfOrdinal),("r",.exportIndexMatching)],
  integerFunction "imports" [("ss",.imports),("si",.importsOrdinal),("s",.importsLibrary),("rr",.importsMatching),
    ("iss",.importsOfKind),("isi",.importsOrdinalOfKind),("is",.importsLibraryOfKind),
    ("irr",.importsMatchingOfKind)],
  integerFunction "import_rva" [("ss",.importAddress),("si",.importAddressOfOrdinal)],
  integerFunction "delayed_import_rva" [("ss",.delayedImportAddress),("si",.delayedImportAddressOfOrdinal)],
  integerFunction "locale" [("i",.locale)],integerFunction "language" [("i",.language)],
  integerFunction "is_dll" [("",.isLibrary)],integerFunction "is_32bit" [("",.is32Bit)],
  integerFunction "is_64bit" [("",.is64Bit)]]
def tableMembers:List (String×Object):=
 integers ["number_of_imports","number_of_imported_functions","number_of_delayed_imports",
  "number_of_delayed_imported_functions","number_of_exports"] ++
  [("dll_name",.noText),("export_timestamp",.noInteger),("export_details",.arrayOf (.record
    (integers ["offset"]++texts ["name","forward_name"]++integers ["ordinal","rva"]))),
   ("import_details",.arrayOf (.record libraryMembers)),
   ("delayed_import_details",.arrayOf (.record libraryMembers)),("resource_timestamp",.noInteger),
   versionMember "resource_version",
   ("resources",.arrayOf (.record (integers ["rva","offset","length","type","id","language"] ++
     texts ["type_string","name_string","language_string"]))),("number_of_resources",.noInteger),
   ("pdb_path",.noText),("signatures",.arrayOf (.record signatureMembers)),("is_signed",.noInteger),
   ("number_of_signatures",.noInteger),integerFunction "rva_to_offset" [("i",.fileOffset)]]
def declarations:Object:=
 .record (integers (constants.map (·.1)++["IMPORT_ANY"])++headerMembers++functionMembers++tableMembers)

/-- The file in the first block that starts like one, and its address. In the memory of a process, libraries are
passed over. -/
def file? (blocks:List Scan.SourceBlock)(memory:Bool):Option (File×Nat):=
 blocks.findSome? fun b=>
  (b.data.bind File.read?).bind fun f=>
   if memory&&f.header.isLibrary then none else some (f,b.base.toNat)
def image? (blocks:List Scan.SourceBlock)(memory:Bool):Option Image:=
 (file? blocks memory).map fun (f,base)=>Image.ofFile f base memory
def optional (n:Option Nat):Object:=n.elim .noInteger .ofNat
def fillVersion (v:Version)(o:Object):Object:=
 o.setMembers [("major",.ofNat v.major),("minor",.ofNat v.minor)]
def fillHeader (x:Image)(o:Object):Object:=
 let h:=x.file.header
 let o:=o.setMembers [("is_pe",.integer 1),("machine",.ofNat h.machine),
   ("number_of_sections",.ofNat h.sectionCount),("timestamp",.ofNat h.timestamp),
   ("pointer_to_symbol_table",.ofNat h.symbolOffset),("number_of_symbols",.ofNat h.symbolCount),
   ("size_of_optional_header",.ofNat h.optionalSize),
   ("characteristics",.ofNat h.characteristics),("entry_point",.ofInt x.entryPoint),
   ("entry_point_raw",.ofNat h.entry),("image_base",.ofNat h.imageBase),
   ("number_of_rva_and_sizes",.ofNat h.directoryCount),("opthdr_magic",.ofNat h.magic),
   ("size_of_code",.ofNat h.codeSize),("size_of_initialized_data",.ofNat h.initializedSize),
   ("size_of_uninitialized_data",.ofNat h.uninitializedSize),
   ("base_of_code",.ofNat h.codeBase),("base_of_data",optional h.dataBase),
   ("section_alignment",.ofNat h.sectionAlignment),("file_alignment",.ofNat h.fileAlignment),
   ("win32_version_value",.ofNat h.reservedVersion),("size_of_image",.ofNat h.imageSize),
   ("size_of_headers",.ofNat h.headerSize),("checksum",.ofNat h.checksum),
   ("subsystem",.ofNat h.subsystem),("dll_characteristics",.ofNat h.libraryCharacteristics),
   ("size_of_stack_reserve",.ofNat h.stackReserve),("size_of_stack_commit",.ofNat h.stackCommit),
   ("size_of_heap_reserve",.ofNat h.heapReserve),("size_of_heap_commit",.ofNat h.heapCommit),
   ("loader_flags",.ofNat h.loaderFlags)]
 let o:=o.modifyMember "linker_version" (fillVersion h.linkerVersion)
 let o:=o.modifyMember "os_version" (fillVersion h.systemVersion)
 let o:=o.modifyMember "image_version" (fillVersion h.imageVersion)
 o.modifyMember "subsystem_version" (fillVersion h.subsystemVersion)
def fillDirectory (d:Directory)(o:Object):Object:=
 o.setMembers [("virtual_address",.ofNat d.address),("size",.ofNat d.size)]
def fillSection (f:File)(s:Section)(o:Object):Object:=
 o.setMembers [("name",.ofBytes s.name),("full_name",.text (f.fullName? s)),
   ("characteristics",.ofNat s.characteristics),("raw_data_size",.ofNat s.rawSize),
   ("raw_data_offset",.ofNat s.rawOffset),("virtual_address",.ofNat s.virtualAddress),
   ("virtual_size",.ofNat s.virtualSize),("pointer_to_relocations",.ofNat s.relocationOffset),
   ("pointer_to_line_numbers",.ofNat s.lineNumberOffset),("number_of_relocations",.ofNat s.relocationCount),
   ("number_of_line_numbers",.ofNat s.lineNumberCount)]
def fillRich (base:Nat)(r:RichSignature)(o:Object):Object:=
 o.setMembers [("offset",.ofNat (base+r.offset)),("length",.ofNat r.length),("key",.ofNat r.key),
   ("raw_data",.ofBytes r.raw),("clear_data",.ofBytes r.clear),("version_data",.text r.versionData?)]
def fillResource (r:Resource)(o:Object):Object:=
 let number (l:Label):Object:=l.number?.elim .noInteger .ofInt
 o.setMembers [("rva",.ofNat r.address),("offset",optional r.offset),("length",.ofNat r.length),
   ("type",number r.type),("id",number r.id),("language",number r.language),
   ("type_string",.text r.type.text),("name_string",.text r.id.text),("language_string",.text r.language.text)]
def fillResources (x:Image)(o:Object):Object:=
 let o:=match x.resourceRoot with
  | some r=>
   (o.setMember "resource_timestamp" (.ofNat r.timestamp)).modifyMember "resource_version" (fillVersion r.version)
  | none=>o
 (o.setMember "number_of_resources" (.ofNat x.resources.length)).modifyMember "resources"
  (·.withMade (x.resources.map fillResource))
def fillVersionInfo (info:List (Bytes×Bytes))(o:Object):Object:=
 let entries:=info.foldl (fun l (k,v)=>
   match l.findIdx? (·.1==k) with
   | some i=>l.setIfInBounds i (k,.ofBytes v)
   | none=>l.push (k,.ofBytes v))
  #[]
 let fillText (e:Bytes×Bytes)(o:Object):Object:=
  o.setMembers [("key",.ofBytes e.1),("value",.ofBytes e.2)]
 let o:=o.setMembers [("number_of_version_infos",.ofNat info.length),("version_info",.dictionary .noText entries)]
 o.modifyMember "version_info_list" (·.withMade (info.map fillText))
def fillFunction (f:ImportedFunction)(o:Object):Object:=
 o.setMembers [("name",.ofBytes f.name),("ordinal",optional f.ordinal),
   ("rva",if f.address==0 then .noInteger else .ofNat f.address)]
def fillLibrary (l:Library)(o:Object):Object:=
 (o.setMembers [("library_name",.ofBytes l.name),
   ("number_of_functions",.ofNat l.functions.length)]).modifyMember "functions"
  (·.withMade (l.functions.map fillFunction))
def fillLibraries (count total list:String)(libraries:List Library)(o:Object):Object:=
 (o.setMembers [(count,.ofNat libraries.length),
   (total,.ofNat (libraries.foldl (fun n l=>n+l.functions.length) 0))]).modifyMember list
  (·.withMade (libraries.map fillLibrary))
def fillExport (e:Export)(o:Object):Object:=
 o.setMembers [("offset",optional e.offset),("name",.text e.name),("forward_name",.text e.forward),
   ("ordinal",.ofNat e.ordinal),("rva",.ofNat e.address)]
def fillExports (t:ExportTable)(o:Object):Object:=
 (o.setMembers [("number_of_exports",.ofNat t.functions.length),("dll_name",.text t.libraryName),
   ("export_timestamp",optional t.timestamp)]).modifyMember "export_details"
  (·.withMade (t.functions.map fillExport))
def fill (x:Image)(o:Object):Object:=
 let f:=x.file
 let (offset,size):=f.overlay
 let o:=fillHeader x o
 let o:=o.modifyMember "data_directories" (·.withMade (f.directories.map fillDirectory))
 let o:=o.modifyMember "sections" (·.withMade (f.sections.map (fillSection f)))
 let o:=o.modifyMember "overlay" (·.setMembers [("offset",.ofNat offset),("size",.ofNat size)])
 let o:=x.rich.elim o fun r=>o.modifyMember "rich_signature" (fillRich x.base r)
 let o:=fillVersionInfo x.versionInfo (fillResources x o)
 let o:=fillLibraries "number_of_imports" "number_of_imported_functions" "import_details" x.imports o
 let o:=fillLibraries "number_of_delayed_imports" "number_of_delayed_imported_functions"
  "delayed_import_details" x.delayedImports o
 (fillExports x.exports o).setMembers
  [("pdb_path",.text x.pdbPath),("is_signed",.integer 0),("number_of_signatures",.integer 0)]
def load (x:Option Image):Object:=
 let o:=declarations.setMembers (constants.map (fun (n,v)=>(n,.ofNat v))++[("IMPORT_ANY",.ofInt (-1)),
   ("is_pe",.integer 0)])
 x.elim o (fill · o)
def natural (c:Call)(n:Nat):Nat:=(c.integer n).toUInt64.toNat

/-- The number of functions for which two regular expressions match more than nothing: the name of the library and
that of the function. -/
def countMatching (c:Call)(n:Nat)(libraries:List Library):Nat:=
 let found (k:Nat)(name:Bytes):Bool:=(c.matchLength? k name).any (0<·)
 (libraries.filter fun l=>found n l.name).foldl
  (fun total l=>total+(l.functions.filter fun f=>found (n+1) f.name).length) 0
def hasName (name:Bytes)(f:ImportedFunction):Bool:=compareNoCase f.name name==0
def hasOrdinal (ordinal:Nat)(f:ImportedFunction):Bool:=f.ordinal==some ordinal
def slotOf (f:Option ImportedFunction):Object:=
 f.elim .noInteger fun f=>if f.address==0 then .noInteger else .ofNat f.address

/-- Whether a resource has a language with some value in its lowest bits. An unknown one counts as the undefined
integer. -/
def speaks (bits value:Nat)(r:Resource):Bool:=
 let language:=(r.language.number?.elim undefinedInteger Int64.ofInt).toUInt64.toNat
 language%1 <<< bits==value
def exportsAs (name:Bytes)(e:Export):Bool:=
 e.name.any fun n=>compareNoCase n name==0
def callOn (x:Image)(f:PeFunction)(c:Call):Object:=
 let rich (version tool:Option Nat):Object:=
  optional (x.rich.bind fun r=>r.uses? version tool)
 match f with
 | .checksum=>.ofNat x.file.calculatedChecksum
 | .richVersion=>rich (some (natural c 1)) none
 | .richVersionOfTool=>rich (some (natural c 1)) (some (natural c 2))
 | .richTool=>rich none (some (natural c 1))
 | .richToolOfVersion=>rich (some (natural c 2)) (some (natural c 1))
 | .importHash=>textResult (ofText (hex (Digest.md5 (importText x.imports))))
 | .sectionNamed=>optional (x.sectionNamed? (c.name 1))
 | .sectionAt=>optional (x.sectionIndex? (c.integer 1).toInt)
 | .exportsName=>truth (x.exports.index? (exportsAs (c.text 1))).isSome
 | .exportsMatching=>truth (x.exports.index? (·.name.any (c.isMatch 1))).isSome
 | .exportsOrdinal=>truth (x.exports.indexOfOrdinal? (c.integer 1).toInt).isSome
 | .exportIndexOfName=>optional (x.exports.index? (exportsAs (c.text 1)))
 | .exportIndexOfOrdinal=>optional (x.exports.indexOfOrdinal? (c.integer 1).toInt)
 | .exportIndexMatching=>optional (x.exports.index? (·.name.any (c.isMatch 1)))
 | .imports=>truth (find? x.imports (c.name 1) (hasName (c.name 2))).isSome
 | .importsOrdinal=>truth (find? x.imports (c.name 1) (hasOrdinal (natural c 2))).isSome
 | .importsLibrary=>.ofNat (countNamed x.imports (c.name 1))
 | .importsMatching=>.ofNat (countMatching c 1 x.imports)
 | .importsOfKind=>
  truth (find? (x.importsOfKind (natural c 1)) (c.name 2) (hasName (c.name 3))).isSome
 | .importsOrdinalOfKind=>
  truth (find? (x.importsOfKind (natural c 1)) (c.name 2) (hasOrdinal (natural c 3))).isSome
 | .importsLibraryOfKind=>
  .ofNat (countNamed (x.importsOfKind (natural c 1)) (c.name 2))
 | .importsMatchingOfKind=>.ofNat (countMatching c 2 (x.importsOfKind (natural c 1)))
 | .importAddress=>slotOf (find? x.imports (c.text 1) (hasName (c.text 2)))
 | .importAddressOfOrdinal=>
  slotOf (find? x.imports (c.text 1) (hasOrdinal (natural c 2)))
 | .delayedImportAddress=>slotOf (find? x.delayedImports (c.text 1) (hasName (c.text 2)))
 | .delayedImportAddressOfOrdinal=>
  slotOf (find? x.delayedImports (c.text 1) (hasOrdinal (natural c 2)))
 | .locale=>truth (x.resources.any (speaks 16 (natural c 1)))
 | .language=>truth (x.resources.any (speaks 8 (natural c 1)))
 | .isLibrary=>.integer (if x.file.header.isLibrary then 0x2000 else 0)
 | .is32Bit=>truth (!x.file.header.is64Bit)
 | .is64Bit=>truth x.file.header.is64Bit
 | .validOn=>.noInteger
 | .fileOffset=>optional (x.file.offset? (natural c 1))
def call (f:PeFunction)(x:Option Image)(c:Call):Object:=
 match x with
 | some x=>callOn x f c
 | none=>if f==.importHash then .noText else .noInteger
end PatternScan.Module.Pe
