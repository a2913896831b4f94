import PatternScan.Object.Basic
namespace PatternScan.Executable
def peHeader? (b:Bytes):Option Nat:=
 let header:=b.le 60 4
 let size:=header+24
 if b.size<64||b.le 0 2 != 0x5A4D||0x80000000≤header||b.size<size then none
 else if b.le header 4==0x4550&&(b.le (header+4) 2==0x14C||b.le (header+4) 2==0x8664)
  && size+224<b.size then some header
 else none
def peSection (b:Bytes)(header address:Nat):Nat→Nat→Nat×Nat→Option (Nat×Nat)
 | 0,_,found=>some found
 | n+1,at_,(start,offset)=>
  if at_-header+40<b.size-header then
   let s:=b.le (at_+12) 4
   let found:=if s≤address&&start ≤ s then (s,b.le (at_+20) 4) else (start,offset)
   peSection b header address n (at_+40) found
  else none
def peOffset (b:Bytes)(header address:Nat):Nat:=
 let first:=header+24+b.le (header+20) 2
 match peSection b header address (min (b.le (header+6) 2) 60) first (0,0) with
 | some (start,offset)=>offset+(address-start)
 | none=>0
structure ElfLayout where
 word:Nat
 headerSize:Nat
 programs:Nat
 sections:Nat
 programCount:Nat
 sectionCount:Nat
 programSize:Nat
 sectionSize:Nat
 programFields:Nat×Nat×Nat
 sectionFields:Nat×Nat×Nat
def elf32:ElfLayout:=
 { word:=4,headerSize:=52,programs:=28,sections:=32,programCount:=44
   sectionCount:=48,programSize:=32,sectionSize:=40,programFields:=(4,8,20)
   sectionFields:=(16,12,20) }
def elf64:ElfLayout:=
 { word:=8,headerSize:=64,programs:=32,sections:=40,programCount:=56
   sectionCount:=60,programSize:=56,sectionSize:=64,programFields:=(8,16,40)
   sectionFields:=(24,16,32) }
def elfLayout? (b:Bytes):Option ElfLayout:=
 if b.size<16||b.le 0 4 != 0x464C457F then none
 else
  match b.byteAt 4 with
  | 1=>if b.size<52 then none else some elf32
  | 2=>if b.size<64 then none else some elf64
  | _=>none
def isProgram (b:Bytes):Bool:=b.le 16 2==2
def entryOf (b:Bytes)(l:ElfLayout):Nat:=b.le 24 l.word
def elfSearch (b:Bytes)(l:ElfLayout)(size:Nat)(fields:Nat×Nat×Nat)
 (usable:Nat→Bool)(address:Nat):Nat→Nat→Nat
 | 0,_=>0
 | n+1,at_=>
  let start:=b.le (at_+fields.2.1) l.word
  let length:=b.le (at_+fields.2.2) l.word
  if usable at_&&start≤address&&address<(start+length)%1 <<< (8*l.word) then
   (b.le (at_+fields.1) l.word+(address-start))%0x10000000000000000
  else elfSearch b l size fields usable address n (at_+size)
def elfOffset (b:Bytes)(l:ElfLayout)(address:Nat):Nat:=
 let look (table count size:Nat) (fields:Nat×Nat×Nat) (usable:Nat→Bool):Nat:=
  if table==0||count==0||b.size<table+size*count then 0
  else elfSearch b l size fields usable address count table
 if isProgram b then
  look (b.le l.programs l.word) (b.le l.programCount 2) l.programSize l.programFields fun _=>true
 else
  look (b.le l.sections l.word) (b.le l.sectionCount 2) l.sectionSize l.sectionFields fun at_=>
   b.le (at_+4) 4 != 0&&b.le (at_+4) 4 != 8
def entryOffset (b:Bytes):Int64:=
 match peHeader? b with
 | some header=>Int64.ofNat (peOffset b header (b.le (header+40) 4))
 | none=>
  match elfLayout? b with
  | some l=>Int64.ofNat (elfOffset b l (entryOf b l))
  | none=>undefinedInteger
def entryAddress (b:Bytes)(base:UInt64):Int64:=
 match peHeader? b with
 | some header=>
  if b.le (header+22) 2/0x2000%2==0 then
   (base+UInt64.ofNat (b.le (header+40) 4)).toInt64
  else undefinedInteger
 | none=>
  match elfLayout? b with
  | some l=>
   if isProgram b then (base+UInt64.ofNat (entryOf b l)).toInt64 else undefinedInteger
  | none=>undefinedInteger
end PatternScan.Executable
