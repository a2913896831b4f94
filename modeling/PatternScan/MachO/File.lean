import PatternScan.Object.Basic
namespace PatternScan.MachO
open UInt64
def constants:List (String×Nat):=
 [("MH_MAGIC",0xfeedface),("MH_CIGAM",0xcefaedfe),("MH_MAGIC_64",0xfeedfacf),
  ("MH_CIGAM_64",0xcffaedfe),("FAT_MAGIC",0xcafebabe),("FAT_CIGAM",0xbebafeca),
  ("FAT_MAGIC_64",0xcafebabf),("FAT_CIGAM_64",0xbfbafeca),("CPU_ARCH_ABI64",0x1000000),
  ("CPU_SUBTYPE_LIB64",0x80000000)] ++
 under "CPU_TYPE_" [("MC680X0",6),("X86",7),("I386",7),("X86_64",0x1000007),("MIPS",8),
  ("MC98000",0xa),("ARM",0xc),("ARM64",0x100000c),("MC88000",0xd),("SPARC",0xe),("POWERPC",0x12),
  ("POWERPC64",0x1000012)] ++
 under "CPU_SUBTYPE_" [("INTEL_MODEL_ALL",0),("386",3),("I386_ALL",3),("X86_64_ALL",3),("486",4),
  ("486SX",0x84),("586",5),("PENT",5),("PENTPRO",0x16),("PENTII_M3",0x36),("PENTII_M5",0x56),
  ("CELERON",0x67),("CELERON_MOBILE",0x77),("PENTIUM_3",8),("PENTIUM_3_M",0x18),
  ("PENTIUM_3_XEON",0x28),("PENTIUM_M",9),("PENTIUM_4",0xa),("PENTIUM_4_M",0x1a),("ITANIUM",0xb),
  ("ITANIUM_2",0x1b),("XEON",0xc),("XEON_MP",0x1c),("ARM_ALL",0),("ARM_V4T",5),("ARM_V6",6),
  ("ARM_V5",7),("ARM_V5TEJ",7),("ARM_XSCALE",8),("ARM_V7",9),("ARM_V7F",0xa),("ARM_V7S",0xb),
  ("ARM_V7K",0xc),("ARM_V6M",0xe),("ARM_V7M",0xf),("ARM_V7EM",0x10),("ARM64_ALL",0),
  ("SPARC_ALL",0),("POWERPC_ALL",0),("MC980000_ALL",0),("POWERPC_601",1),("MC98601",1)] ++
 under "CPU_SUBTYPE_POWERPC_" [("602",2),("603",3),("603e",4),("603ev",5),("604",6),("604e",7),
  ("620",8),("750",9),("7400",0xa),("7450",0xb),("970",0x64)] ++
 under "MH_" [("OBJECT",1),("EXECUTE",2),("FVMLIB",3),("CORE",4),("PRELOAD",5),("DYLIB",6),
  ("DYLINKER",7),("BUNDLE",8),("DYLIB_STUB",9),("DSYM",0xa),("KEXT_BUNDLE",0xb),("NOUNDEFS",1),
  ("INCRLINK",2),("DYLDLINK",4),("BINDATLOAD",8),("PREBOUND",0x10),("SPLIT_SEGS",0x20),
  ("LAZY_INIT",0x40),("TWOLEVEL",0x80),("FORCE_FLAT",0x100),("NOMULTIDEFS",0x200),
  ("NOFIXPREBINDING",0x400),("PREBINDABLE",0x800),("ALLMODSBOUND",0x1000),
  ("SUBSECTIONS_VIA_SYMBOLS",0x2000),("CANONICAL",0x4000),("WEAK_DEFINES",0x8000),
  ("BINDS_TO_WEAK",0x10000),("ALLOW_STACK_EXECUTION",0x20000),("ROOT_SAFE",0x40000),
  ("SETUID_SAFE",0x80000),("NO_REEXPORTED_DYLIBS",0x100000),("PIE",0x200000),
  ("DEAD_STRIPPABLE_DYLIB",0x400000),("HAS_TLV_DESCRIPTORS",0x800000),("NO_HEAP_EXECUTION",0x1000000),
  ("APP_EXTENSION_SAFE",0x2000000)] ++
 [("SG_HIGHVM",1),("SG_FVMLIB",2),("SG_NORELOC",4),("SG_PROTECTED_VERSION_1",8),
  ("SECTION_TYPE",0xff),("SECTION_ATTRIBUTES",0xffffff00)] ++
 under "S_" [("REGULAR",0),("ZEROFILL",1),("CSTRING_LITERALS",2),("4BYTE_LITERALS",3),
  ("8BYTE_LITERALS",4),("LITERAL_POINTERS",5),("NON_LAZY_SYMBOL_POINTERS",6),
  ("LAZY_SYMBOL_POINTERS",7),("SYMBOL_STUBS",8),("MOD_INIT_FUNC_POINTERS",9),
  ("MOD_TERM_FUNC_POINTERS",0xa),("COALESCED",0xb),("GB_ZEROFILL",0xc),("INTERPOSING",0xd),
  ("16BYTE_LITERALS",0xe),("DTRACE_DOF",0xf),("LAZY_DYLIB_SYMBOL_POINTERS",0x10)] ++
 under "S_THREAD_LOCAL_" [("REGULAR",0x11),("ZEROFILL",0x12),("VARIABLES",0x13),
  ("VARIABLE_POINTERS",0x14),("INIT_FUNCTION_POINTERS",0x15)] ++
 under "S_ATTR_" [("PURE_INSTRUCTIONS",0x80000000),("NO_TOC",0x40000000),
  ("STRIP_STATIC_SYMS",0x20000000),("NO_DEAD_STRIP",0x10000000),("LIVE_SUPPORT",0x8000000),
  ("SELF_MODIFYING_CODE",0x4000000),("DEBUG",0x2000000),("SOME_INSTRUCTIONS",0x400),
  ("EXT_RELOC",0x200),("LOC_RELOC",0x100)]
structure Section where
 name:Bytes
 segment:Bytes
 address:Nat
 size:Nat
 offset:Nat
 align:Nat
 relocationOffset:Nat
 relocationCount:Nat
 flags:Nat
 reserved1:Nat
 reserved2:Nat
 reserved3:Option Nat
structure Segment where
 name:Bytes
 address:Nat
 size:Nat
 fileOffset:Nat
 fileSize:Nat
 maxProtection:Nat
 initialProtection:Nat
 sectionCount:Nat
 flags:Nat
 sections:List Section
structure File where
 magic:Nat
 cpuType:Nat
 cpuSubtype:Nat
 fileType:Nat
 commandCount:Nat
 commandSize:Nat
 flags:Nat
 reserved:Option Nat
 segments:List (Option Segment)
 entryPoint:Option UInt64:=none
 stackSize:Option Nat:=none
def is32 (magic:Nat):Bool:=magic==0xFEEDFACE||magic==0xCEFAEDFE
def isBig (magic:Nat):Bool:=
 magic==0xFEEDFACE||magic==0xFEEDFACF||magic==0xCAFEBABE||magic==0xCAFEBABF
def isFileMagic (magic:Nat):Bool:=
 magic==0xFEEDFACE||magic==0xCEFAEDFE||magic==0xFEEDFACF||magic==0xCFFAEDFE
def isFatMagic (magic:Nat):Bool:=
 magic==0xCAFEBABE||magic==0xBEBAFECA||magic==0xCAFEBABF||magic==0xBFBAFECA
def headerLimit:Nat:=32
def commandsFrom (d:Bytes)(big:Bool):Nat→Nat→List Nat
 | 0,_=>[]
 | n+1,i=>
  let size:=d.word big (i+4) 4
  if d.size < i+8||d.size-i<size||size<8 then []
  else i::commandsFrom d big n (i+size)
def nameAt (d:Bytes)(i:Nat):Bytes:=Bytes.untilNul (d.slice i 16)
def sectionAt (d:Bytes)(big:Bool)(w i:Nat):Section:=
 let n (k:Nat):Nat:=d.word big (i+32+2*w+4*k) 4
 { name:=nameAt d i
   segment:=nameAt d (i+16)
   address:=d.word big (i+32) w
   size:=d.word big (i+32+w) w
   offset:=n 0
   align:=n 1
   relocationOffset:=n 2
   relocationCount:=n 3
   flags:=n 4
   reserved1:=n 5
   reserved2:=n 6
   reserved3:=if w==8 then some (n 7) else none }
def sectionSize (w:Nat):Nat:=if w==8 then 80 else 68
def segmentSize (w:Nat):Nat:=40+4*w
def segmentAt? (d:Bytes)(big:Bool)(w i:Nat):Option Segment:=
 if d.size-i<segmentSize w then none
 else
  let address (k:Nat):Nat:=d.word big (i+24+k*w) w
  let n (k:Nat):Nat:=d.word big (i+24+4*w+4*k) 4
  let room:=(d.word big (i+4) 4-segmentSize w)/sectionSize w
  some
   { name:=nameAt d (i+8)
     address:=address 0
     size:=address 1
     fileOffset:=address 2
     fileSize:=address 3
     maxProtection:=n 0
     initialProtection:=n 1
     sectionCount:=n 2
     flags:=n 3
     sections:=(List.range (min (n 2) room)).map fun j=>
      sectionAt d big w (i+segmentSize w+j*sectionSize w) }
structure ThreadState where
 size:Nat
 counter:Nat
 width:Nat
def threadState? (cpuType:Nat):Option ThreadState:=
 match cpuType with
 | 0x6=>some ⟨72,68,4⟩
 | 0xD=>some ⟨136,124,4⟩
 | 0xE=>some ⟨76,4,4⟩
 | 0x12=>some ⟨160,0,4⟩
 | 0x7=>some ⟨64,40,4⟩
 | 0xC=>some ⟨68,60,4⟩
 | 0x1000007=>some ⟨168,128,8⟩
 | 0x100000C=>some ⟨268,256,8⟩
 | 0x1000012=>some ⟨304,0,8⟩
 | _=>none
def threadStart? (d:Bytes)(big:Bool)(cpuType i:Nat):Option Nat:=
 let size:=min (d.size-i) (d.le (i+4) 4)%0x100000000
 if d.size-i<16||size<16 then none
 else
  match threadState? cpuType with
  | none=>none
  | some t=>
   if size-16<t.size then none else some (d.word big (i+16+t.counter) t.width)
def plus (a b:Nat):UInt64:=ofNat a+ofNat b
def relocate (range:Segment→Nat×Nat)(target:Segment→Nat)(address:Nat):List (Option Segment)→Option UInt64
 | []=>none
 | none::rest=>relocate range target address rest
 | some s::rest=>
  let (start,size):=range s
  if start≤address&&ofNat address<plus start size then
   some (plus (target s) (address-start))
  else relocate range target address rest
def fileOffset? (segments:List (Option Segment))(address:Nat):Option UInt64:=
 relocate (fun s=>(s.address,s.size)) (·.fileOffset) address segments
def address? (segments:List (Option Segment))(offset:Nat):Option UInt64:=
 relocate (fun s=>(s.fileOffset,s.fileSize)) (·.address) offset segments
def File.start (d:Bytes)(big memory:Bool)(base:UInt64)(f:File)(i:Nat):File:=
 match d.word big i 4 with
 | 0x5=>
  match threadStart? d big f.cpuType i with
  | none=>f
  | some address=>
   let entry:=
    if memory then some (base+ofNat address) else fileOffset? f.segments address
   {f with entryPoint:=entry.or f.entryPoint}
 | 0x80000028=>
  if d.size-i<24 then f
  else
   let offset:=d.word big (i+8) 8
   let entry:=if memory then address? f.segments offset else some (ofNat offset)
   {f with entryPoint:=entry.or f.entryPoint,stackSize:=some (d.word big (i+16) 8)}
 | _=>f
def File.read? (d:Bytes)(memory:Bool)(base:UInt64):Option File:=
 if d.size<headerLimit then none
 else
  let magic:=d.be 0 4
  let big:=isBig magic
  let n (k:Nat):Nat:=d.word big (4*k) 4
  let first:=if is32 magic then 28 else 32
  let commands:=commandsFrom d big (min (n 4) (d.size/8)) first
  let segments:=commands.filterMap fun i=>
   match d.word big i 4 with
   | 0x1=>some (segmentAt? d big 4 i)
   | 0x19=>some (segmentAt? d big 8 i)
   | _=>none
  let f:File:=
   { magic:=magic
     cpuType:=n 1
     cpuSubtype:=n 2
     fileType:=n 3
     commandCount:=n 4
     commandSize:=n 5
     flags:=n 6
     reserved:=if is32 magic then none else some (n 7)
     segments:=segments }
  some (commands.foldl (start d big memory base) f)
structure Architecture where
 cpuType:Nat
 cpuSubtype:Nat
 offset:Nat
 size:Nat
 align:Nat
structure Part where
 architecture:Architecture
 inside:Bool
 file:Option File
structure Fat where
 magic:Nat
 count:Nat
 parts:List Part
def architectureAt (d:Bytes)(w i:Nat):Architecture:=
 { cpuType:=d.be i 4
   cpuSubtype:=d.be (i+4) 4
   offset:=d.be (i+8) w
   size:=d.be (i+8+w) w
   align:=d.be (i+8+2*w) 4 }
def partOf (d:Bytes)(memory:Bool)(base:UInt64)(a:Architecture):Part:=
 let stop:=a.offset+a.size
 if 0x10000000000000000 ≤ stop||d.size<stop then ⟨a,false,none⟩
 else ⟨a,true,File.read? (d.slice a.offset a.size) memory base⟩
def Fat.read? (d:Bytes)(memory:Bool)(base:UInt64):Option Fat:=
 if d.size<8 then none
 else
  let magic:=d.be 0 4
  let count:=d.be 4 4
  let (w,size):=if magic==0xCAFEBABE then (4,20) else (8,32)
  let parts:=
   if d.size<8+count*size then []
   else (List.range count).map fun i=>
    partOf d memory base (architectureAt d w (8+i*size))
  some ⟨magic,count,parts⟩
inductive Image where
 | file (f:File)
 | fat (f:Fat)
 | nothing
def Image.read? (d:Bytes)(memory:Bool)(base:UInt64):Option Image:=
 let magic:=d.be 0 4
 if d.size<4 then none
 else if isFileMagic magic then some ((File.read? d memory base).elim .nothing .file)
 else if isFatMagic magic then some ((Fat.read? d memory base).elim .nothing .fat)
 else none
end PatternScan.MachO
