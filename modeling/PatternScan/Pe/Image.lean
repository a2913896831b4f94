import PatternScan.Pe.Export
import PatternScan.Pe.Import
import PatternScan.Pe.Resource
namespace PatternScan.Pe
open ByteArray Bytes
def align4 (n:Nat):Nat:=(n+3)/4*4
def wideSize? (d:Bytes)(i:Nat):Option Nat:=
 let rec search (j:Nat):Option Nat:=
  if j+2≤d.size then
   if d.byteAt j==0&&d.byteAt (j+1)==0 then some ((j-i)/2) else search (j+2)
  else none
 termination_by d.size-j
 search i
def keyIs (d:Bytes)(i:Nat)(key:String):Bool:=
 d.occursAt (widen ((ofText key).push 0)) (i+6)
def blockLength? (d:Bytes)(i:Nat):Option Nat:=
 let n:=d.le i 2
 if i+6≤d.size&&(wideSize? d (i+6)).isSome&&n != 0 then some n else none
def valueStart (d:Bytes)(i:Nat):Nat:=
 i+align4 (8+2*(wideSize? d (i+6)).getD 0)
def keyAndText? (d:Bytes)(i:Nat):Option (Bytes×Bytes):=
 let v:=valueStart d i
 if (wideSize? d v).isSome then
  some (lowBytes d 63 (i+6) empty,if d.le (i+2) 2==0 then empty else lowBytes d 255 v empty)
 else none
def blocksBetween (d:Bytes)(stop:Nat):Nat→Nat→List Nat
 | 0,_=>[]
 | n+1,i=>
  match blockLength? d i with
  | some length=>
   if i<stop then i::blocksBetween d stop n (i+align4 length) else []
  | none=>[]
def blocksOfKey (d:Bytes)(key:String):Nat→Nat→List Nat
 | 0,_=>[]
 | n+1,i=>
  if keyIs d i key&&d.le i 2 != 0 then i::blocksOfKey d key n (i+align4 (d.le i 2)) else []
def blockEnd (d:Bytes)(i:Nat):Nat:=i+align4 (d.le i 2)
def versionTexts (d:Bytes)(i:Nat):List (Bytes×Bytes):=
 if keyIs d i "VS_VERSION_INFO" then
  let translations:=blocksOfKey d "VarFileInfo" d.size (i+92)
  let first:=translations.getLast?.elim (i+92) (blockEnd d)
  (blocksOfKey d "StringFileInfo" d.size first).flatMap fun info=>
   (blocksBetween d (blockEnd d info) d.size (info+36)).flatMap fun table=>
    (blocksBetween d (blockEnd d table) d.size (valueStart d table)).filterMap (keyAndText? d)
 else []
def File.versionInfo (f:File)(resources:List Resource):List (Bytes×Bytes):=
 resources.flatMap fun r=>
  if r.type.number==16 then (r.offset.elim [] (versionTexts f.data)) else []

/-! An entry of the debug directory may tell where the linker put the debug information. -/
namespace File
def pathLimit:Nat:=4096
def pathStart? (signature:Nat):Option Nat:=
 if signature==0x3031424e then some 16
 else if signature==0x53445352 then some 24
 else if signature==0x434f544d then some 20
 else none
def debugPath? (f:File)(entry:Nat):Option Bytes:=
 let address:=f.word (entry+20)
 let mapped:=if address==0 then 0 else (f.offset? address).getD 0
 let record:=if mapped==0 then f.word (entry+24) else mapped
 if f.word (entry+12) != 2||record==0||!f.fits record 8 then none
 else
  match pathStart? (f.word record) with
  | none=>none
  | some start=>
   let path:=f.textAt (record+start) pathLimit
   if f.fits record (start+1)&&path.size<pathLimit then some path else none
def pdbPath? (f:File):Option Bytes:=
 match f.directoryOffset? 6 with
 | none=>none
 | some start=>
  let count:=min ((f.directory 6).size/28) ((f.size-start)/28)
  (List.range count).findSome? fun i=>f.debugPath? (start+28*i)
end File
/-! A linker may leave a list of the tools that made the parts of a file. -/
structure RichSignature where
 offset:Nat
 key:Nat
 raw:Bytes
 clear:Bytes
namespace RichSignature
def lastPlace? (d:Bytes)(test:Nat→Bool)(i:Nat):Option Nat:=
 if 64 ≤ i then
  if test (d.le i 4) then some i else lastPlace? d test (i-4)
 else none
termination_by i
def decrypt (raw:Bytes)(key:Nat):Bytes:=
 let k:=pushLe empty key 4
 ofList (raw.toList.zipIdx.map fun (c,i)=>c ^^^ k.byteAt (i%4))
def find? (f:File):Option RichSignature:=
 let d:=f.data
 match lastPlace? d (· == 0x68636952) (f.start-4) with
 | none=>none
 | some stop=>
  let key:=d.le (stop+4) 4
  if key==0 then none
  else
   match lastPlace? d (fun w=>w ^^^ key==0x536e6144) (stop-4) with
   | none=>none
   | some start=>
    let raw:=d.extract start stop
    some {offset:=start,key:=key,raw:=raw,clear:=decrypt raw key}
def length (r:RichSignature):Nat:=r.raw.size
def entries (r:RichSignature):List (Nat×Nat):=
 (List.range ((r.length-16)/8)).map fun i=>
  (r.clear.le (16+8*i) 4,r.clear.le (20+8*i) 4)
def versionData? (r:RichSignature):Option Bytes:=
 if r.length<16 then none
 else some (r.entries.foldl (fun b (w,_)=>pushLe b w 4) empty)
def uses? (r:RichSignature)(version tool:Option Nat):Option Nat:=
 if r.length<16 then none
 else
  let chosen:=r.entries.filter fun (w,_)=>
   version.all (· == w%0x10000)&&tool.all (· == w/0x10000)
  some (chosen.foldl (fun n (_,times)=>n+times) 0)
end RichSignature
structure Image where
 file:File
 base:Nat
 memory:Bool
 rich:Option RichSignature
 pdbPath:Option Bytes
 resourceRoot:Option ResourceRoot
 resources:List Resource
 versionInfo:List (Bytes×Bytes)
 imports:List Library
 delayedImports:List Library
 exports:ExportTable
namespace Image
def ofFile (f:File)(base:Nat)(memory:Bool):Image:=
 let resources:=f.resources
 { file:=f
   base:=base
   memory:=memory
   rich:=RichSignature.find? f
   pdbPath:=f.pdbPath?
   resourceRoot:=f.resourceRoot?
   resources:=resources
   versionInfo:=f.versionInfo resources
   imports:=f.imports
   delayedImports:=f.delayedImports
   exports:=f.exports }
def entryPoint (x:Image):Int:=
 let entry:=x.file.header.entry
 if x.memory then x.base+entry
 else
  match x.file.offset? entry with
  | some i=>i
  | none=>-1
def sectionIndex? (x:Image)(place:Int):Option Nat:=
 x.file.sections.findIdx? fun s=>
  let (start,size):=
   if x.memory then (s.virtualAddress,s.virtualSize) else (s.rawOffset,s.rawSize)
  start≤place&&place<start+size
def sectionNamed? (x:Image)(name:Bytes):Option Nat:=
 x.file.sections.findIdx? fun s=>untilNul s.name==name
def importsOfKind (x:Image)(kind:Nat):List Library:=
 (if kind.testBit 0 then x.imports else [])++(if kind.testBit 1 then x.delayedImports else [])
end Image
end PatternScan.Pe
