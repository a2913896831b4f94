import PatternScan.Bytes.Basic
namespace PatternScan.Elf
open Bytes
structure Format where
 width:Nat
 big:Bool
 deriving DecidableEq
namespace Format
def headerSize (f:Format):Nat:=if f.width==8 then 64 else 52
def sectionSize (f:Format):Nat:=if f.width==8 then 64 else 40
def segmentSize (f:Format):Nat:=if f.width==8 then 56 else 32
def symbolSize (f:Format):Nat:=if f.width==8 then 24 else 16
def dynamicSize (f:Format):Nat:=2*f.width
def ofBytes? (d:Bytes):Option Format:=
 let width:Option Nat:=
  match d.byteAt 4 with
  | 1=>some 4
  | 2=>some 8
  | _=>none
 let big:Option Bool:=
  match d.byteAt 5 with
  | 1=>some false
  | 2=>some true
  | _=>none
 if d.size<16||d.le 0 4 != 0x464C457F then none
 else
  match width,big with
  | some w,some b=>if (mk w b).headerSize<d.size then some ⟨w,b⟩ else none
  | _,_=>none
def half (f:Format)(d:Bytes)(i:Nat):Nat:=d.word f.big i 2
def word (f:Format)(d:Bytes)(i:Nat):Nat:=d.word f.big i 4
def address (f:Format)(d:Bytes)(i:Nat):Nat:=d.word f.big i f.width
end Format
structure Header where
 type:Nat
 machine:Nat
 entry:Nat
 segmentOffset:Nat
 sectionOffset:Nat
 segmentEntrySize:Nat
 segmentCount:Nat
 sectionEntrySize:Nat
 sectionCount:Nat
 nameSection:Nat
def Header.read (f:Format)(d:Bytes):Header:=
 let w:=f.width
 let n (k:Nat):Nat:=f.half d (30+3*w+2*k)
 { type:=f.half d 16
   machine:=f.half d 18
   entry:=f.address d 24
   segmentOffset:=f.address d (24+w)
   sectionOffset:=f.address d (24+2*w)
   segmentEntrySize:=n 0
   segmentCount:=n 1
   sectionEntrySize:=n 2
   sectionCount:=n 3
   nameSection:=n 4 }
structure Section where
 nameIndex:Nat
 name:Option Bytes:=none
 type:Nat
 flags:Nat
 address:Nat
 offset:Nat
 size:Nat
 link:Nat
def sectionAt (f:Format)(d:Bytes)(i:Nat):Section:=
 let w:=f.width
 { nameIndex:=f.word d i
   type:=f.word d (i+4)
   flags:=f.address d (i+8)
   address:=f.address d (i+8+w)
   offset:=f.address d (i+8+2*w)
   size:=f.address d (i+8+3*w)
   link:=f.word d (i+8+4*w) }
structure Segment where
 type:Nat
 flags:Nat
 offset:Nat
 virtualAddress:Nat
 physicalAddress:Nat
 fileSize:Nat
 memorySize:Nat
 alignment:Nat
def segmentAt (f:Format)(d:Bytes)(i:Nat):Segment:=
 let w:=f.width
 let first:=if w==8 then 8 else 4
 let n (k:Nat):Nat:=f.address d (i+first+k*w)
 { type:=f.word d i
   flags:=f.word d (if w==8 then i+4 else i+24)
   offset:=n 0
   virtualAddress:=n 1
   physicalAddress:=n 2
   fileSize:=n 3
   memorySize:=n 4
   alignment:=if w==8 then n 5 else f.word d (i+28) }
structure Symbol where
 name:Option Bytes
 value:Nat
 size:Nat
 type:Nat
 binding:Nat
 visibility:Nat
 home:Nat
def textAt? (d:Bytes)(start stop index:Nat):Option Bytes:=
 let i:=start+index
 let j:=d.indexOf 0 i
 if stop ≤ start||d.byteAt start != 0||0x80000000 ≤ index||stop ≤ i||stop≤j then none
 else some (d.extract i j)
def symbolAt (f:Format)(d:Bytes)(textStart textStop i:Nat):Symbol:=
 let (value,size,info):=if f.width==8 then (8,16,4) else (4,8,12)
 let c:=(d.byteAt (i+info)).toNat
 { name:=textAt? d textStart textStop (f.word d i)
   value:=f.address d (i+value)
   size:=f.address d (i+size)
   type:=c%16
   binding:=c/16
   visibility:=(d.byteAt (i+info+1)).toNat%4
   home:=f.half d (i+info+2) }
structure DynamicEntry where
 tag:Nat
 value:Nat
structure File where
 format:Format
 header:Header
 entryPoint:Option UInt64:=none
 sections:List Section:=[]
 symbols:Option (List Symbol):=none
 dynamicSymbols:Option (List Symbol):=none
 segments:List Segment:=[]
 dynamic:List DynamicEntry:=[]
 dynamicCount:Option Nat:=none
def places (start size count:Nat):List Nat:=(List.range count).map fun i=>start+i*size
def table? (d:Bytes)(start size count:Nat):Option (List Nat):=
 if start==0||count==0||d.size<start+size*count then none
 else some (places start size count)

/-- The offset of an address in the first range that holds it; ends of ranges wrap. -/
def offsetIn? (f:Format)(address:Nat):List (Nat×Nat×Nat)→Option UInt64
 | []=>none
 | (start,size,offset)::rest=>
  if start≤address&&address<(start+size)%1 <<< (8*f.width) then
   some (UInt64.ofNat (offset+(address-start)))
  else offsetIn? f address rest
def fileOffset? (f:Format)(d:Bytes)(h:Header)(address:Nat):Option UInt64:=
 if h.type==2 then
  (table? d h.segmentOffset f.segmentSize h.segmentCount).bind fun l=>
   offsetIn? f address (l.map fun i=>
    let s:=segmentAt f d i
    (s.virtualAddress,s.memorySize,s.offset))
 else
  (table? d h.sectionOffset f.sectionSize h.sectionCount).bind fun l=>
   offsetIn? f address (l.filterMap fun i=>
    let s:=sectionAt f d i
    if s.type==0||s.type==8 then none else some (s.address,s.size,s.offset))
def sectionName? (d:Bytes)(names s:Section):Option Bytes:=
 if d.size≤names.offset||names.offset==0||d.size ≤ s.nameIndex then none
 else textAt? d names.offset d.size s.nameIndex

/-- The section of texts that the link of a section of some type leads to. The link is compared with the number of
sections as it stands with the least significant byte first. -/
def textsOf? (f:Format)(d:Bytes)(h:Header)(type:Nat)(s:Section):Option Section:=
 let i:=h.sectionOffset+s.link*f.sectionSize
 let t:=sectionAt f d i
 if s.type==type&&s.link<d.le (36+3*f.width) 2&&i+f.sectionSize≤d.size&&t.type==3 then
  some t
 else none

/-- The symbols of the last section of some type whose link leads to a section of texts. -/
def symbolsOf? (f:Format)(d:Bytes)(h:Header)(type:Nat)(sections:List Section):Option (List Symbol):=
 match (sections.filterMap fun s=>(textsOf? f d h type s).map fun t=>(s,t)).getLast? with
 | none=>none
 | some (s,t)=>
  if t.offset+t.size≤d.size&&s.offset+s.size≤d.size then
   some ((places s.offset f.symbolSize (s.size/f.symbolSize)).map (symbolAt f d t.offset (t.offset+t.size)))
  else none
def File.withSections (x:File)(d:Bytes):File:=
 let f:=x.format
 let h:=x.header
 if h.sectionCount<0xFF00&&h.nameSection<h.sectionCount&&h.sectionOffset<d.size
  && h.sectionOffset+h.sectionCount*f.sectionSize≤d.size then
  let names:=sectionAt f d (h.sectionOffset+h.nameSection*f.sectionSize)
  let sections:=(places h.sectionOffset f.sectionSize h.sectionCount).map fun i=>
   let s:=sectionAt f d i
   {s with name:=sectionName? d names s}
  { x with
    sections:=sections
    symbols:=symbolsOf? f d h 2 sections
    dynamicSymbols:=symbolsOf? f d h 11 sections }
 else x
def dynamicFrom (f:Format)(d:Bytes):Nat→Nat→List DynamicEntry
 | 0,_=>[]
 | n+1,i=>
  if d.size < i+f.dynamicSize then []
  else
   let e:DynamicEntry:=⟨f.address d i,f.address d (i+f.width)⟩
   if e.tag==0 then [e] else e::dynamicFrom f d n (i+f.dynamicSize)
def File.withDynamic (x:File)(d:Bytes)(s:Segment):File:=
 if s.type==2 then
  let entries:=if s.offset<d.size then dynamicFrom x.format d d.size s.offset else []
  { x with
    dynamic:=entries++x.dynamic.drop entries.length
    dynamicCount:=some entries.length }
 else x
def File.withSegments (x:File)(d:Bytes):File:=
 let f:=x.format
 let h:=x.header
 if 0<h.segmentCount&&h.segmentCount<0xFFFF&&h.segmentOffset<d.size
  && h.segmentOffset+h.segmentCount*f.segmentSize≤d.size then
  let segments:=(places h.segmentOffset f.segmentSize h.segmentCount).map (segmentAt f d)
  segments.foldl (fun x s=>x.withDynamic d s) {x with segments:=segments}
 else x

/-- Reads a file loaded at a base address. In memory only programs are read, and the entry point is an address instead
of an offset. -/
def File.read? (d:Bytes)(memory:Bool)(base:UInt64):Option File:=
 match Format.ofBytes? d with
 | none=>none
 | some f=>
  let h:=Header.read f d
  if memory&&h.type != 2 then none
  else
   let entry:=
    if h.entry==0 then none
    else if memory then some (base+UInt64.ofNat h.entry)
    else fileOffset? f d h h.entry
   let x:File:={format:=f,header:=h,entryPoint:=entry}
   some ((x.withSections d).withSegments d)
def File.linkedSymbols (x:File):List Symbol:=(x.dynamicSymbols.or x.symbols).getD []
def textLe (a b:Bytes):Bool:=!decide (b.toList<a.toList)
def joined (names:List Bytes):Option Bytes:=
 let sorted:=(names.map fun n=>ofList (n.toList.map lower)).mergeSort textLe
 match sorted with
 | []=>none
 | first::rest=>some (rest.foldl (fun b n=>b.push 44++n) first)
def File.importedNames (x:File):Option Bytes:=
 joined (x.linkedSymbols.filterMap fun s=>
  s.name.filter fun n=>s.home==0&&!n.isEmpty)
def commonNames:List Bytes:=
 ["__libc_start_main","main","abort","cachectl","cacheflush","puts","atol", "malloc_trim"].map ofText
def isTelling (n:Bytes):Bool:=
 let starts (s:String):Bool:=n.occursAt (ofText s) 0
 !(starts "." || starts "_" || starts "str" || starts "mem" || commonNames.contains n
  || (2≤n.size&&n.occursAt (ofText "64") (n.size-2)))
def File.functionNames (x:File):Option Bytes:=
 joined (x.linkedSymbols.filterMap fun s=>
  s.name.filter fun n=>
   s.binding==1&&s.type==2&&s.visibility==0&&isTelling n)
end PatternScan.Elf
