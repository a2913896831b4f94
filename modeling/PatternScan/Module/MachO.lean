import PatternScan.MachO.File
import PatternScan.Module.Call
namespace PatternScan.Module.MachO
open PatternScan.MachO
def fileMembers:List (String×Object):=
 let integers (names:List String):List (String×Object):=names.map fun n=>(n,.noInteger)
 let sections:Object:=.record ([("sectname",.noText),("segname",.noText)] ++
   integers ["addr","size","offset","align","reloff","nreloc","flags","reserved1", "reserved2","reserved3"])
 let segments:Object:=.record ([("segname",.noText)] ++
   integers ["vmaddr","vmsize","fileoff","fsize","maxprot","initprot","nsects","flags"] ++
   [("sections",.arrayOf sections)])
 integers ["magic","cputype","cpusubtype","filetype","ncmds","sizeofcmds","flags", "reserved","number_of_segments"] ++
 [("segments",.arrayOf segments)]++integers ["entry_point","stack_size"]
def declarations:Object:=
 let integers (names:List String):List (String×Object):=names.map fun n=>(n,.noInteger)
 .record (integers (constants.map (·.1))++fileMembers++integers ["fat_magic","nfat_arch"]++[("fat_arch",.arrayOf
    (.record (integers ["cputype","cpusubtype","offset","size","align"]))),
    ("file",.arrayOf (.record fileMembers)),
    ("file_index_for_arch",overloaded .noInteger [("i",.macho .fileIndex),("ii",.macho .fileIndexOfSubtype)]),
    ("entry_point_for_arch",overloaded .noInteger [("i",.macho .entryPoint),("ii",.macho .entryPointOfSubtype)])])
def optional (n:Option Nat):Object:=n.elim .noInteger .ofNat
def fillSection (s:Section)(o:Object):Object:=
 o.setMembers [("sectname",.ofBytes s.name),("segname",.ofBytes s.segment),("addr",.ofNat s.address),
   ("size",.ofNat s.size),("offset",.ofNat s.offset),("align",.ofNat s.align),
   ("reloff",.ofNat s.relocationOffset),("nreloc",.ofNat s.relocationCount),
   ("flags",.ofNat s.flags),("reserved1",.ofNat s.reserved1),
   ("reserved2",.ofNat s.reserved2),("reserved3",optional s.reserved3)]
def fillSegment (s:Segment)(o:Object):Object:=
 (o.setMembers [("segname",.ofBytes s.name),("vmaddr",.ofNat s.address),("vmsize",.ofNat s.size),
   ("fileoff",.ofNat s.fileOffset),("fsize",.ofNat s.fileSize),
   ("maxprot",.ofNat s.maxProtection),("initprot",.ofNat s.initialProtection),
   ("nsects",.ofNat s.sectionCount),("flags",.ofNat s.flags)]).modifyMember "sections"
  (·.withMade (s.sections.map fillSection))
def fillFile (f:File)(o:Object):Object:=
 (o.setMembers [("magic",.ofNat f.magic),("cputype",.ofNat f.cpuType),("cpusubtype",.ofNat f.cpuSubtype),
   ("filetype",.ofNat f.fileType),("ncmds",.ofNat f.commandCount),
   ("sizeofcmds",.ofNat f.commandSize),("flags",.ofNat f.flags),
   ("reserved",optional f.reserved),("number_of_segments",.ofNat f.segments.length),
   ("entry_point",optional (f.entryPoint.map UInt64.toNat)),
   ("stack_size",optional f.stackSize)]).modifyMember "segments"
  (·.withSome (f.segments.map fun s=>s.map fillSegment))
def fillArchitecture (a:Architecture)(o:Object):Object:=
 o.setMembers [("cputype",.ofNat a.cpuType),("cpusubtype",.ofNat a.cpuSubtype),
   ("offset",.ofNat a.offset),("size",.ofNat a.size),("align",.ofNat a.align)]
def fillFat (f:Fat)(o:Object):Object:=
 let file (p:Part):Option (Object→Object):=
  if p.inside then some (p.file.elim id fillFile) else none
 ((o.setMembers [("fat_magic",.ofNat f.magic),("nfat_arch",.ofNat f.count)]).modifyMember
  "fat_arch" (·.withMade (f.parts.map fun p=>fillArchitecture p.architecture))).modifyMember
  "file" (·.withSome (f.parts.map file))
def image (blocks:List Scan.SourceBlock)(memory:Bool):Image:=
 (blocks.findSome? fun b=>b.data.bind fun d=>Image.read? d memory b.base).getD .nothing
def load (i:Image):Object:=
 let o:=declarations.setMembers (constants.map fun (n,v)=>(n,.ofNat v))
 match i with
 | .file f=>fillFile f o
 | .fat f=>fillFat f o
 | .nothing=>o
def fileIndex (parts:List Part)(test:File→Bool):Object:=
 ((parts.findIdx? fun p=>p.file.any test).map Object.ofNat).getD .noInteger
def entryWord (p:Part):UInt64:=
 (p.file.bind (·.entryPoint)).getD undefinedInteger.toUInt64
def call (f:MachoFunction)(i:Image)(c:Call):Object:=
 match i with
 | .fat fat=>
  let is (n:Nat)(v:Nat):Bool:=c.integer n==Int64.ofNat v
  let sum (p:Part):Object:=
   .integer (UInt64.ofNat p.architecture.offset+entryWord p).toInt64
  match f with
  | .fileIndex=>fileIndex fat.parts fun x=>is 1 x.cpuType
  | .fileIndexOfSubtype=>fileIndex fat.parts fun x=>is 1 x.cpuType&&is 2 x.cpuSubtype
  | .entryPoint=>
   ((fat.parts.find? fun p=>is 1 p.architecture.cpuType).map sum).getD .noInteger
  | .entryPointOfSubtype=>
   match fat.parts.find? fun p=>
    is 1 p.architecture.cpuType&&is 2 p.architecture.cpuSubtype with
   | some p=>if entryWord p==undefinedInteger.toUInt64 then .noInteger else sum p
   | none=>.noInteger
 | _=>.noInteger
end PatternScan.Module.MachO
