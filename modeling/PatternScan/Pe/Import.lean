import PatternScan.Pe.File
import PatternScan.Pe.Ordinal
namespace PatternScan.Pe
open ByteArray Bytes
structure ImportedFunction where
 name:Bytes
 ordinal:Option Nat
 address:Nat
structure Library where
 name:Bytes
 functions:List ImportedFunction
namespace Library
def isNamed (l:Library)(name:Bytes):Bool:=compareNoCase l.name name==0
def find? (libraries:List Library)(name:Bytes)(test:ImportedFunction→Bool):Option ImportedFunction:=
 (libraries.filter (·.isNamed name)).findSome? fun l=>l.functions.find? test
def countNamed (libraries:List Library)(name:Bytes):Nat:=
 (libraries.filter (·.isNamed name)).foldl (fun n l=>n+l.functions.length) 0
def stem (name:Bytes):Bytes:=
 let parts:=name.toList.reverse
 let extension:=(parts.takeWhile (· != 46)).length
 let start:=name.size-extension-1
 let chopped:=[".ocx",".sys",".dll"].any fun e=>
  startsWithNoCase (name.extract start name.size) (ofText e)
 if extension<name.size&&chopped then name.extract 0 start else name

/-- The text whose digest tells files with the same imports: functions with the stems of their libraries, in lower
case, with commas between. -/
def importText (libraries:List Library):Bytes:=
 let items:=libraries.flatMap fun l=>
  l.functions.map fun f=>((stem l.name).push 46)++f.name
 let text:=match items with
  | []=>empty
  | first::rest=>rest.foldl (fun b item=>b.push 44++item) first
 text.foldl (fun b c=>b.push (lower c)) empty
end Library
def isFunctionByte (c:UInt8):Bool:=
 isWord c||[46,63,64,36,40,41,60,62].contains c
def isLibraryByte (c:UInt8):Bool:=
 32≤c&&c≤126&&!([34,42,60,62,63,124].contains c)
namespace File
def importLimit:Nat:=16384
def functionNameLimit:Nat:=512
def libraryName? (f:File)(i limit:Nat):Option Bytes:=
 let n:=min (f.size-i) limit
 let name:=f.textAt i n
 if name.isEmpty||n≤name.size||anyByte name (!isLibraryByte ·) then none else some name
def ordinalFlag (f:File):Nat:=1 <<< (8*f.header.width-1)
def importedName (f:File)(library:Bytes)(value:Nat):Option Bytes×Option Nat:=
 if value<f.ordinalFlag then
  let name:=(f.offset? value).bind fun i=>
   if f.fits i 3 then some (f.textAt (i+2) functionNameLimit) else none
  (name,none)
 else if value≤f.ordinalFlag+0xffff then
  let ordinal:=value%0x10000
  (some (ordinalName library ordinal),some ordinal)
 else (none,none)
def isFunctionName (name:Bytes):Bool:=
 !name.isEmpty&&!anyByte name (!isFunctionByte ·)
def functionsFrom (f:File)(library:Bytes):Nat→Nat→Nat→Nat→List ImportedFunction→List ImportedFunction
 | 0,_,_,_,found=>found.reverse
 | n+1,i,slot,room,found=>
  let w:=f.header.width
  let value:=f.addressAt i
  if !f.fits i w||value==0||room==0 then found.reverse
  else
   match f.importedName library value with
   | (some name,ordinal)=>
    if isFunctionName name then
     let address:=if w==8 then slot else slot%0x100000000
     functionsFrom f library n (i+w) (slot+w) (room-1) (⟨name,ordinal,address⟩::found)
    else functionsFrom f library n (i+w) (slot+w) room found
   | (none,_)=>functionsFrom f library n (i+w) (slot+w) room found
def describedFunctions (f:File)(library:Bytes)(i room:Nat):List ImportedFunction:=
 let slots:=f.word (i+16)
 let names:=(f.offset? (f.word i)).getD 0
 let start:=if names==0 then f.offset? slots else some names
 start.elim [] fun start=>f.functionsFrom library importLimit start slots room []
def librariesFrom (f:File):Nat→Nat→Nat→List Library→List Library
 | 0,_,_,found=>found.reverse
 | n+1,i,room,found=>
  let address:=f.word (i+12)
  if !f.fits i 20||address==0 then found.reverse
  else
   match (f.offset? address).bind (f.libraryName? · 256) with
   | some name=>
    let functions:=f.describedFunctions name i room
    if functions.isEmpty then librariesFrom f n (i+20) room found
    else librariesFrom f n (i+20) (room-functions.length) (⟨name,functions⟩::found)
   | none=>librariesFrom f n (i+20) room found
def imports (f:File):List Library:=
 (f.directoryOffset? 1).elim [] fun i=>f.librariesFrom importLimit i importLimit []
def withoutBase (f:File)(address:Nat):Nat:=
 if f.header.imageBase<address then address-f.header.imageBase else address
def pointerAt? (f:File)(address:Nat):Option Nat:=
 (f.offset? address).bind fun i=>
  let value:=f.addressAt i
  if f.fits i f.header.width&&value != 0xFFFABADAFABADAFF then some value else none
def delayedName? (f:File)(library:Bytes)(rebased:Bool)(value:Nat):Option (Bytes×Option Nat):=
 if value &&& f.ordinalFlag==0 then
  let address:=if rebased then f.withoutBase value else value
  (f.offset? ((address+2)%0x10000000000000000)).map fun i=>(f.textAt i functionNameLimit,none)
 else
  let ordinal:=value%0x10000
  some (ordinalName library ordinal,some ordinal)
def delayedFunctions (f:File)(library:Bytes)(rebased:Bool):
 Nat→Nat→Nat→List ImportedFunction→List ImportedFunction
 | 0,_,_,found=>found.reverse
 | n+1,names,slots,found=>
  let w:=f.header.width
  match f.pointerAt? names,f.pointerAt? slots with
  | some value,some address=>
   if value==0||address==0 then found.reverse
   else
    match f.delayedName? library rebased value with
    | some (name,ordinal)=>
     delayedFunctions f library rebased n (names+w) (slots+w) (⟨name,ordinal,slots⟩::found)
    | none=>delayedFunctions f library rebased n (names+w) (slots+w) found
  | _,_=>found.reverse

/-- More than the entries that a table of addresses can have in the file: at most one for each byte of the file, in
each section and before the sections. -/
def delayedLimit (f:File):Nat:=(sectionLimit+1)*f.size+1
def delayedFrom (f:File):Nat→Nat→List Library→List Library
 | 0,_,found=>found.reverse
 | n+1,i,found=>
  let attributes:=f.word i
  let rebased:=attributes==0
  let field (k:Nat):Nat:=
   let v:=f.word (i+4*k)
   if rebased&&!f.header.is64Bit then f.withoutBase v else v
  let (library,slots,names):=(field 1,field 3,field 4)
  let blank:=(List.range 8).all fun k=>f.word (i+4*k)==0
  if !f.fits i 32||blank||1<attributes||f.header.imageSize≤names
   || f.header.imageSize ≤ slots||library<64||names<64 then found.reverse
  else
   match (f.offset? library).bind fun o=>f.libraryName? o f.size with
   | some name=>
    let functions:=f.delayedFunctions name rebased f.delayedLimit names slots []
    delayedFrom f n (i+32) (⟨name,functions⟩::found)
   | none=>delayedFrom f n (i+32) found
def delayedImports (f:File):List Library:=
 (f.directoryOffset? 13).elim [] fun i=>f.delayedFrom f.size i []
end File
end PatternScan.Pe
