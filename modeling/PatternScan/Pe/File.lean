import PatternScan.Bytes.Basic
namespace PatternScan.Pe
open Bytes
structure Version where
 major:Nat
 minor:Nat
deriving DecidableEq,Inhabited
structure Directory where
 address:Nat
 size:Nat
deriving DecidableEq,Inhabited
structure Section where
 label:Bytes
 virtualSize:Nat
 virtualAddress:Nat
 rawSize:Nat
 rawOffset:Nat
 relocationOffset:Nat
 lineNumberOffset:Nat
 relocationCount:Nat
 lineNumberCount:Nat
 characteristics:Nat
deriving Inhabited
structure Header where
 machine:Nat
 sectionCount:Nat
 timestamp:Nat
 symbolOffset:Nat
 symbolCount:Nat
 optionalSize:Nat
 characteristics:Nat
 magic:Nat
 linkerVersion:Version
 codeSize:Nat
 initializedSize:Nat
 uninitializedSize:Nat
 entry:Nat
 codeBase:Nat
 dataBase:Option Nat
 imageBase:Nat
 sectionAlignment:Nat
 fileAlignment:Nat
 systemVersion:Version
 imageVersion:Version
 subsystemVersion:Version
 reservedVersion:Nat
 imageSize:Nat
 headerSize:Nat
 checksum:Nat
 subsystem:Nat
 libraryCharacteristics:Nat
 stackReserve:Nat
 stackCommit:Nat
 heapReserve:Nat
 heapCommit:Nat
 loaderFlags:Nat
 directoryCount:Nat
deriving Inhabited
namespace Header
def is64Bit (h:Header):Bool:=h.magic==0x20b
def width (h:Header):Nat:=if h.is64Bit then 8 else 4
def isLibrary (h:Header):Bool:=h.characteristics.testBit 13
def read (d:Bytes)(start:Nat):Header:=
 let base:=start+24
 let half (i:Nat):Nat:=d.le (base+i) 2
 let word (i:Nat):Nat:=d.le (base+i) 4
 let wide:Bool:=half 0==0x20b
 let w:=if wide then 8 else 4
 let size (k:Nat):Nat:=d.le (base+72+k*w) w
 { machine:=d.le (start+4) 2
   sectionCount:=d.le (start+6) 2
   timestamp:=d.le (start+8) 4
   symbolOffset:=d.le (start+12) 4
   symbolCount:=d.le (start+16) 4
   optionalSize:=d.le (start+20) 2
   characteristics:=d.le (start+22) 2
   magic:=half 0
   linkerVersion:=⟨d.le (base+2) 1,d.le (base+3) 1⟩
   codeSize:=word 4
   initializedSize:=word 8
   uninitializedSize:=word 12
   entry:=word 16
   codeBase:=word 20
   dataBase:=if wide then none else some (word 24)
   imageBase:=if wide then d.le (base+24) 8 else word 28
   sectionAlignment:=word 32
   fileAlignment:=word 36
   systemVersion:=⟨half 40,half 42⟩
   imageVersion:=⟨half 44,half 46⟩
   subsystemVersion:=⟨half 48,half 50⟩
   reservedVersion:=word 52
   imageSize:=word 56
   headerSize:=word 60
   checksum:=word 64
   subsystem:=half 68
   libraryCharacteristics:=half 70
   stackReserve:=size 0
   stackCommit:=size 1
   heapReserve:=size 2
   heapCommit:=size 3
   loaderFlags:=word (72+4*w)
   directoryCount:=word (76+4*w) }

/-- The offset is rounded down to the alignment of the file, and to whole sectors if sections are put on pages of
their own. -/
def rawStart (h:Header)(offset:Nat):Nat:=
 let alignment:=min h.fileAlignment 0x200
 let aligned:=if alignment==0 then offset else offset-offset%alignment
 if 0x1000≤h.sectionAlignment then aligned-aligned%0x200 else aligned
end Header
namespace Section
def read (d:Bytes)(i:Nat):Section:=
 { label:=d.slice i 8
   virtualSize:=d.le (i+8) 4
   virtualAddress:=d.le (i+12) 4
   rawSize:=d.le (i+16) 4
   rawOffset:=d.le (i+20) 4
   relocationOffset:=d.le (i+24) 4
   lineNumberOffset:=d.le (i+28) 4
   relocationCount:=d.le (i+32) 2
   lineNumberCount:=d.le (i+34) 2
   characteristics:=d.le (i+36) 4 }
def holds (s:Section)(address:Nat):Bool:=
 s.virtualAddress≤address&&address-s.virtualAddress < max s.virtualSize s.rawSize
def name (s:Section):Bytes:=
 ofList (s.label.toList.reverse.dropWhile (· == 0)).reverse
end Section
structure File where
 data:Bytes
 start:Nat
 header:Header
 sections:List Section
deriving Inhabited
namespace File
def sectionLimit:Nat:=96
def declaredSections (h:Header):Nat:=min h.sectionCount sectionLimit
def readSections (d:Bytes):Nat→Nat→List Section
 | 0,_=>[]
 | n+1,i=>if d.size < i+40 then [] else Section.read d i::readSections d n (i+40)
def read? (d:Bytes):Option File:=
 let start:=d.le 60 4
 let size:=if d.le (start+24) 2==0x20b then 264 else 248
 if d.size<64||d.le 0 2 != 0x5A4D||0x80000000 ≤ start||d.size<start+248
  || d.le start 4 != 0x4550||d.size<start+size then none
 else
  let h:=Header.read d start
  some
   { data:=d
     start:=start
     header:=h
     sections:=readSections d (declaredSections h) (start+24+h.optionalSize) }
def size (f:File):Nat:=f.data.size
def fits (f:File)(offset count:Nat):Bool:=offset+count≤f.size
def half (f:File)(i:Nat):Nat:=f.data.le i 2
def word (f:File)(i:Nat):Nat:=f.data.le i 4
def addressAt (f:File)(i:Nat):Nat:=f.data.le i f.header.width
def textAt (f:File)(i limit:Nat):Bytes:=
 f.data.extract i (f.data.indexBefore 0 i (min f.size (i+limit)))
def directory (f:File)(k:Nat):Directory:=
 let i:=f.start+104+4*f.header.width+8*k
 ⟨f.word i,f.word (i+4)⟩
def directories (f:File):List Directory:=
 (List.range (min f.header.directoryCount 16)).map f.directory
def sectionAt? (f:File)(address:Nat):Option Section:=
 f.sections.foldl (fun best s=>
   if s.holds address&&(best.elim 0 (·.virtualAddress)) ≤ s.virtualAddress then some s
   else best)
  none
def lowestAddress (f:File):Nat:=
 f.sections.foldl (fun n s=>min n s.virtualAddress) 0xffffffff

/-- The address and the offset at which a part starts, and its size in the file. What comes before all sections is the
start of the file itself. -/
def partAt (f:File)(address:Nat):Nat×Nat×Nat:=
 if address<f.lowestAddress then (0,0,f.size%0x100000000)
 else
  match f.sectionAt? address with
  | some s=>(s.virtualAddress,f.header.rawStart s.rawOffset,s.rawSize)
  | none=>(0,0,0)
def offset? (f:File)(address:Nat):Option Nat:=
 let (start,offset,size):=f.partAt address
 let result:=offset+(address-start)
 if f.sections.length<declaredSections f.header||size≤address-start||f.size≤result then
  none
 else some result
def directoryOffset? (f:File)(k:Nat):Option Nat:=
 let address:=(f.directory k).address
 if address==0 then none else f.offset? address

/-- A label that starts with a slash is an index in decimal into the texts behind the symbols, if there are symbols;
the text there has to be printable. -/
def fullName? (f:File)(s:Section):Option Bytes:=
 if f.header.symbolOffset==0||s.label.byteAt 0 != 47 then some s.name
 else
  let digits:=(s.label.toList.drop 1).takeWhile isDigit
  let index:=digits.foldl (fun n c=>n*10+(c.toNat-48)) 0
  let i:=f.header.symbolOffset+f.header.symbolCount*18+index
  let text:=f.textAt i f.size
  if f.fits i (text.size+1)&&!anyByte text (fun c=>c<32||126<c) then some text
  else none

/-- The end of the sections in the file. Ends are compared as words of 32 bits. -/
def sectionsEnd (f:File):Nat:=
 f.sections.foldl (fun n s=>if n<(s.rawOffset+s.rawSize)%0x100000000 then s.rawOffset+s.rawSize else n) 0
def overlay (f:File):Nat×Nat:=
 let e:=f.sectionsEnd
 if e != 0&&e<f.size then (e,f.size-e) else (0,0)

/-- The sum of the words of four bytes from an offset on, with end-around carry, where the word at `skipped` counts as
zero. -/
def sumWords (f:File)(skipped:Nat):Nat→Nat→Nat→Nat
 | 0,_,sum=>sum
 | n+1,i,sum=>
  let sum:=if i==skipped then sum else sum+f.word i
  sumWords f skipped n (i+4) (if 0xffffffff<sum then sum%0x100000000+sum/0x100000000 else sum)
def calculatedChecksum (f:File):Nat:=
 let sum:=f.sumWords (f.start+88) (f.size/4+1) 0 0
 let sum:=sum%0x10000+sum/0x10000
 let sum:=sum+sum/0x10000
 sum%0x10000+f.size
end File
end PatternScan.Pe
