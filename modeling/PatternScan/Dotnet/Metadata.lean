import PatternScan.Pe.File
/-! Metadata hold integers in one, two or four bytes, most significant byte first; the first bits tell
how many. -/
namespace PatternScan.Dotnet
open Bytes Pe
def readBits? : List UInt8→Option (Nat×Nat×List UInt8)
 | a::rest=>
  if a<0x80 then some (a.toNat,7,rest)
  else
   match rest with
   | []=>none
   | b::rest=>
    if a<0xC0 then some (a.toNat%64*256+b.toNat,14,rest)
    else
     match rest with
     | c::d::rest=>
      if a<0xE0 then
       some (((a.toNat%32*256+b.toNat)*256+c.toNat)*256+d.toNat,29,rest)
      else none
     | _=>none
 | []=>none
def readUnsigned (s:List UInt8):Nat×List UInt8:=
 match readBits? s with
 | some (n,_,rest)=>(n,rest)
 | none=>(0,s)
def readSigned (s:List UInt8):Int×List UInt8:=
 match readBits? s with
 | some (n,bits,rest)=>
  (if n%2==1 then (n/2:Int)-(1 <<< (bits-1):Nat) else (n/2:Int),rest)
 | none=>(0,s)

/-- Where the content of an entry of a heap starts, and its length, which comes first. The entry lies in the data; a
length in four bytes needs one more byte behind it. -/
def heapEntry? (d:Bytes)(i:Nat):Option (Nat×Nat):=
 let a:=(d.byteAt i).toNat
 let (size,length,room):=
  if a<0x80 then (1,a,1)
  else if a<0xC0 then (2,a%64*256+(d.byteAt (i+1)).toNat,2)
  else (4,d.be i 4%0x20000000,5)
 if a<0xE0&&i+room≤d.size&&i+size+length≤d.size then some (i+size,length)
 else none
theorem lt_of_heapEntry? {d:Bytes}{i start length:Nat}(h: heapEntry? d i=some (start,length)):i<start:=by
 unfold heapEntry? at h
 grind

/-! A program for the runtime is a portable executable with a header that leads to its metadata. -/
structure Stream where
 name:Bytes
 offset:Nat
 size:Nat
structure Metadata where
 file:File
 runtime:Nat
 start:Nat
 versionSize:Nat
namespace Metadata
def find? (f:File):Option Metadata:=
 match f.offset? (f.directory 14).address with
 | none=>none
 | some runtime=>
  if !f.fits runtime 72||f.word runtime != 72 then none
  else
   match f.offset? (f.word (runtime+8)) with
   | none=>none
   | some start=>
    let n:=f.word (start+12)
    if !f.fits start 16||f.word start != 0x424a5342||n==0||255<n||n%4 != 0
     || !f.fits (start+16) n||(f.header.is64Bit&&f.header.directoryCount<14) then none
    else some {file:=f,runtime:=runtime,start:=start,versionSize:=n}
def version? (m:Metadata):Option Bytes:=
 let text:=m.file.textAt (m.start+16) m.versionSize
 if text.size < m.versionSize then some text else none
def streamNameLimit:Nat:=32
def readStreams (m:Metadata):Nat→Nat→List Stream
 | 0,_=>[]
 | n+1,i=>
  let f:=m.file
  let name:=f.textAt (i+8) streamNameLimit
  if !f.fits (i+8) streamNameLimit||name.size==streamNameLimit then []
  else
   ⟨name,m.start+f.word i,f.word (i+4)⟩ :: readStreams m n (i+8+name.size+4-name.size%4)
def streams? (m:Metadata):Option (List Stream):=
 let i:=m.start+16+m.versionSize+2
 if m.file.fits i 2 then some (m.readStreams (m.file.data.byteAt i).toNat (i+2)) else none
end Metadata
def Stream.isNamed (s:Stream)(starts:List String):Bool:=
 starts.any fun t=>startsWith s.name (ofText t)
def guidText (d:Bytes)(i:Nat):String:=
 let number (j n:Nat):String:=hex (ofList (d.slice j n).toList.reverse)
 number i 4++"-"++number (i+4) 2++"-"++number (i+6) 2++"-" ++
  hex (d.slice (i+8) 2)++"-"++hex (d.slice (i+10) 6)
def guids (f:File)(s:Stream):List String:=
 let places:=(List.range (min s.size 256/16)).map fun k=>s.offset+16*k
 (places.takeWhile (f.fits · 16)).map (guidText f.data)

/-- The texts from an offset on. The byte behind the text of an entry is read as an entry of its own. -/
def userTexts (d:Bytes)(stop i:Nat):List Bytes:=
 if i<stop then
  match h: heapEntry? d i with
  | none=>[]
  | some (start,length)=>
   if 1<length then
    d.slice start (length-1)::userTexts d stop (start+(length-1))
   else userTexts d stop start
 else []
termination_by stop-i
decreasing_by all_goals have:= lt_of_heapEntry? h;omega
def userTexts? (f:File)(s:Stream):Option (List Bytes):=
 if s.size==0||!f.fits s.offset s.size||f.data.byteAt s.offset != 0 then none
 else some (userTexts f.data (s.offset+s.size) (s.offset+1))
end PatternScan.Dotnet
