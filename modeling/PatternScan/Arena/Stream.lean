import PatternScan.Bytes.Basic
import PatternScan.ResultCode
/-! An arena is written as a header, a table of its buffers, their contents, and the list of places that
hold addresses. -/
namespace PatternScan
/-! An arena keeps data in a few growing buffers. A reference, a buffer and an offset, does not
change when buffers move. -/
structure Arena.Ref where
 buffer:Nat
 offset:Nat
 deriving DecidableEq
def Arena.Ref.null:Arena.Ref:=⟨0xffffffff,0xffffffff⟩
structure Arena.Buffer where
 base:Nat
 capacity:Nat
 data:Bytes
structure Arena where
 count:Nat
 initial:Nat
 buffers:Array Arena.Buffer
 relocations:Array Arena.Ref
namespace Arena
def maxBuffers:Nat:=16
def noBuffer:Buffer:=⟨0,0,ByteArray.empty⟩
def create (count initial:Nat):Arena:=
 ⟨count,initial,Array.replicate maxBuffers noBuffer,#[]⟩
def bufferAt (a:Arena)(i:Nat):Buffer:=a.buffers.getD i noBuffer
def wordSpan:Nat:=0x10000000000000000
def placement (buffer capacity:Nat):Nat:=(buffer+1)*0x100000000000000+capacity
def load64 (a:Arena)(r:Ref):Nat:=Bytes.le (a.bufferAt r.buffer).data r.offset 8
def setLe (d:Bytes)(offset v:Nat):Nat→Bytes
 | 0=>d
 | n+1=>setLe (Bytes.setByte d offset v.toUInt8) (offset+1) (v/256) n
def store64 (a:Arena)(r:Ref)(v:Nat):Arena:=
 {a with buffers:=a.buffers.modify r.buffer fun b=>{b with data:=setLe b.data r.offset v 8}}
def enlarge (need:Nat):Nat→Nat→Nat
 | 0,size=>size
 | fuel+1,size=>if size<need then enlarge need fuel (size*2) else size
def relocate (a:Arena)(old used new:Nat):Arena:=
 a.relocations.foldl (fun a r=>
   let v:=a.load64 r
   if old≤v&&v<old+used then a.store64 r (v-old+new) else a) a
def move (a:Arena)(buffer base capacity:Nat):Arena:=
 let b:=a.bufferAt buffer
 let a:={ a with buffers:=a.buffers.modify buffer fun b=>
  {b with base:=base,capacity:=capacity} }
 if b.base=0 then a else a.relocate b.base b.data.size base
def reserve (a:Arena)(buffer size:Nat)(place:Arena→Nat→Nat→Nat:=fun _=>placement):Except ResultCode Arena:=
 if buffer>a.count then .error .invalidArgument
 else
  let b:=a.bufferAt buffer
  if b.capacity-b.data.size<size then
   let start:=if b.capacity=0 then a.initial else b.capacity*2
   let capacity:=enlarge ((b.data.size+size)%wordSpan) 64 start
   let base:=place a buffer capacity
   if capacity>0x100000000||base=0 then .error .insufficientMemory
   else .ok (a.move buffer base capacity)
  else .ok a
def extend (a:Arena)(buffer:Nat)(data:Bytes):Ref×Arena:=
 (⟨buffer,(a.bufferAt buffer).data.size⟩,
  {a with buffers:=a.buffers.modify buffer fun b=>{b with data:=b.data++data}})
def write (a:Arena)(buffer:Nat)(data:Bytes)(place:Arena→Nat→Nat→Nat:=fun _=>placement):
 Except ResultCode (Ref×Arena):=
 (a.reserve buffer data.size place).map (·.extend buffer data)

/-- The number of bytes in use is a word of 64 bits. A size that takes it beyond makes it smaller. -/
def grant (a:Arena)(buffer size:Nat):Ref×Arena:=
 let used:=(a.bufferAt buffer).data.size
 if used+size<wordSpan then a.extend buffer (Bytes.replicate size 0)
 else
  (⟨buffer,used⟩,{ a with buffers:=a.buffers.modify buffer fun b=>
   {b with data:=b.data.extract 0 (used+size-wordSpan)} })
def allocate (a:Arena)(buffer size:Nat)(place:Arena→Nat→Nat→Nat:=fun _=>placement):
 Except ResultCode (Ref×Arena):=
 (a.reserve buffer size place).map (·.grant buffer size)
def writeText (a:Arena)(buffer:Nat)(text:Bytes):Except ResultCode (Ref×Arena):=
 a.write buffer (text.untilNul.push 0)
def write32 (a:Arena)(buffer v:Nat):Except ResultCode (Ref×Arena):=
 a.write buffer (Bytes.pushLe ByteArray.empty v 4)
def addRelocation (a:Arena)(r:Ref):Arena:=
 {a with relocations:=a.relocations.push r}
def allocateRecord (a:Arena)(buffer size:Nat)(fields:List Nat)(place:Arena→Nat→Nat→Nat:=fun _=>placement):
 Except ResultCode (Ref×Arena):=do
 let (r,a) ← a.allocate buffer size place
 pure (r,fields.foldl (fun a f=>a.addRelocation ⟨buffer,r.offset+f⟩) a)
def address (a:Arena)(r:Ref):Nat:=
 let b:=a.bufferAt r.buffer
 if b.base=0 then 0 else b.base+r.offset
def place? (a:Arena)(address:Nat):Option Ref:=
 if address=0 then some Ref.null
 else
  (List.range a.count).findSome? fun i=>
   let b:=a.bufferAt i
   if b.base≠0&&b.base≤address&&address<b.base+b.data.size then
    some ⟨i,address-b.base⟩
   else none
def follow? (a:Arena)(r:Ref):Option Ref:=a.place? (a.load64 r)
def point (a:Arena)(r target:Ref):Arena:=a.store64 r (a.address target)
end Arena
end PatternScan
namespace PatternScan.Arena
def magic:Bytes:=Bytes.ofList [0x59,0x41,0x52,0x41]
def version:UInt8:=0x15
def loadedInitial:Nat:=10485
def digits (v n:Nat):Bytes:=Bytes.pushLe ByteArray.empty v n
def Ref.toNat64 (r:Ref):Nat:=r.buffer+0x100000000*r.offset
def Ref.ofNat64 (v:Nat):Ref:=⟨v%0x100000000,v/0x100000000⟩
inductive StreamError where
 | code (c:ResultCode)
 | outside
 deriving DecidableEq

/-- A stream that is written to. What it has taken decides about the next piece. -/
structure Sink where
 accepts:Bytes→Bytes→Bool
 taken:Bytes:=ByteArray.empty
def Sink.put (s:Sink)(piece:Bytes):Option Sink:=
 if s.accepts s.taken piece then some {s with taken:=s.taken++piece} else none
def Sink.putAll (s:Sink)(pieces:List Bytes):Option Sink:=pieces.foldlM Sink.put s
def toReference? (a:Arena)(r:Ref):Option Arena:=
 (a.place? (a.load64 r)).map fun target=>a.store64 r target.toNat64
def resolve? (a:Arena)(r:Ref):Option Nat:=
 if r=Ref.null then some 0
 else if r.buffer<a.count&&r.offset≤(a.bufferAt r.buffer).data.size then some (a.address r)
 else none

/-- The reference that stands at a place; memory behind the bytes in use has none. -/
def referenceAt (a:Arena)(r:Ref):Ref:=
 if r.offset+8≤(a.bufferAt r.buffer).data.size then Ref.ofNat64 (a.load64 r) else Ref.null
def toAddress? (a:Arena)(r:Ref):Option Arena:=
 (a.resolve? (a.referenceAt r)).map (a.store64 r)
def header (a:Arena):Bytes:=magic++Bytes.ofList [version,a.count.toUInt8]
def entries:Nat→List Nat→List Bytes
 | _,[]=>[]
 | offset,n::rest=>
  (digits offset 8++digits n 4)::entries (offset+n%0x100000000) rest
def contents (a:Arena):List Bytes:=(List.range a.count).map fun i=>(a.bufferAt i).data
def front (a:Arena):List Bytes:=
 a.header::entries (6+12*a.count) (a.contents.map (·.size))
structure Saved where
 outcome:Except StreamError Unit
 arena:Arena
 sink:Sink
def restore:List Ref→Arena→Sink→Saved
 | [],a,s=>⟨.ok (),a,s⟩
 | r::rest,a,s=>
  match s.put (digits r.toNat64 8) with
  | none=>⟨.error (.code .writingFile),a,s⟩
  | some s=>
   match a.toAddress? r with
   | none=>⟨.error .outside,a,s⟩
   | some a=>restore rest a s
def save (a:Arena)(accepts:Bytes→Bytes→Bool):Saved:=
 let s:Sink:={accepts:=accepts}
 match s.putAll a.front with
 | none=>⟨.error (.code .writingFile),a,s⟩
 | some s=>
  match a.relocations.toList.foldlM toReference? a with
  | none=>⟨.error .outside,a,s⟩
  | some b=>
   match s.putAll (b.contents.filter (·.size≠0)) with
   | none=>⟨.error (.code .writingFile),b,s⟩
   | some s=>restore a.relocations.toList b s
def holdsAddress (a:Arena)(r:Ref):Bool:=
 let b:=a.bufferAt r.buffer
 b.base≠0&&b.data.size≥8&&r.buffer<a.count&&r.offset≤b.data.size-8
def loadBuffers (src:Bytes):Nat→Nat→Nat→Arena→Except StreamError (Nat×Arena)
 | 0,_,i,a=>.ok (i,a)
 | n+1,k,i,a=>
  let size:=src.le (6+12*k+8) 4
  if size=0 then loadBuffers src n (k+1) i a
  else
   match a.reserve k size with
   | .error c=>.error (.code c)
   | .ok a=>
    if src.size < i+size then .error (.code .corruptFile)
    else loadBuffers src n (k+1) (i+size) (a.extend k (src.extract i (i+size))).2
def loadPlaces (src:Bytes):Nat→Nat→Arena→Except StreamError Arena
 | 0,_,a=>.ok a
 | fuel+1,i,a=>
  if src.size < i+8 then .ok a
  else
   let r:=Ref.ofNat64 (src.le i 8)
   if !a.holdsAddress r then .error (.code .corruptFile)
   else
    match a.toAddress? r with
    | none=>.error .outside
    | some a=>loadPlaces src fuel (i+8) (a.addRelocation r)
/-- The numbers that the table of buffers is indexed with on the way: each one is looked up before it is compared
with the number of buffers. -/
def consulted (src:Bytes):Nat→Nat→Arena→List Nat
 | 0,_,_=>[]
 | fuel+1,i,a=>
  if src.size < i+8 then []
  else
   let r:=Ref.ofNat64 (src.le i 8)
   if !a.holdsAddress r then [r.buffer]
   else
    match a.toAddress? r with
    | none=>[r.buffer]
    | some a=>r.buffer::consulted src fuel (i+8) (a.addRelocation r)
def load (src:Bytes):Except StreamError Arena:=
 let count:=(src.byteAt 5).toNat
 if src.size<6||src.extract 0 4 != magic then .error (.code .invalidFile)
 else if src.byteAt 4≠version then .error (.code .unsupportedFileVersion)
 else if count>maxBuffers then .error (.code .invalidFile)
 else if src.size<6+12*count then .error (.code .corruptFile)
 else do
  let (i,a) ← loadBuffers src count 0 (6+12*count) (create count loadedInitial)
  loadPlaces src (src.size+1) i a
end PatternScan.Arena
