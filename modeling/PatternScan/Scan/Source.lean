import PatternScan.Object.Basic
import PatternScan.ResultCode
import PatternScan.Rule.Terminal
namespace PatternScan.Scan
open UInt64 (ofNat)
structure SourceBlock where
 base:UInt64
 data:Option Bytes
 signal:Option Int:=none
namespace SourceBlock
def size (b:SourceBlock):Nat:=b.data.elim 0 (·.size)
def stop (b:SourceBlock):UInt64:=b.base+ofNat b.size
def holds (b:SourceBlock)(address:UInt64):Bool:=b.base≤address&&address<b.stop
end SourceBlock
structure Source where
 blocks:Array SourceBlock
 fileSize:Option Int64:=none
 position:Nat:=0
 code:Int:=0
 /-- How often the source is not ready before it gives the block with a number, or the end. -/
 pauses:Nat→Nat:=fun _=>0
namespace Source
def ofBytes (b:Bytes):Source:=
 {blocks:=#[⟨0,some b,none⟩],fileSize:=some (Int64.ofNat b.size)}
def unreadable:Source:={blocks:=#[⟨0,none,none⟩],fileSize:=some 0}
def notReady:Int:=61
def next (s:Source):Option SourceBlock×Source:=
 match s.pauses s.position with
 | n+1=>
  (none,{ s with
     code:=notReady
     pauses:=fun i=>if i=s.position then n else s.pauses i })
 | 0=>
  match s.blocks[s.position]? with
  | none=>(none,{s with code:=0})
  | some b=>
   match b.signal with
   | some code=>
    (none,{ s with
       code:=code
       blocks:=s.blocks.modify s.position fun b=>{b with signal:=none} })
   | none=>(some b,{s with position:=s.position+1,code:=0})
def delay (s:Source)(i:Nat):Nat:=
 s.pauses i+if (s.blocks[i]?.bind (·.signal)).isSome then 1 else 0
def patience (s:Source):Nat:=
 ((List.range (s.blocks.size+1)).map s.delay).foldr (·+·) 0+1
def rest (s:Source):Nat→List SourceBlock×Source
 | 0=>([],s)
 | n+1=>
  match s.next with
  | (none,s)=>([],s)
  | (some b,s)=>
   let (bs,s):=s.rest n
   (b::bs,s)
def visit (s:Source):List SourceBlock×Source:=
 {s with position:=0}.rest (s.blocks.size+1)

/-- The bytes of a range of addresses, as the pieces that the blocks hold. A range that starts in no block, or has a
gap, has none. -/
def pieces (offset length:Nat)(started:Bool):List SourceBlock→Option (List Bytes)
 | []=>if started then some [] else none
 | b::rest=>
  let last:=ofNat (offset+length)≤b.stop
  if b.holds (ofNat offset) then
   let start:=offset-b.base.toNat
   let n:=min length (b.size-start)
   let piece:=(b.data.getD ByteArray.empty).slice start n
   if last then some [piece]
   else (pieces (offset+n) (length-n) true rest).map (piece::·)
  else if started then none
  else if last then none
  else pieces offset length false rest

/-- The range has no negative bound and does not start before the first block. -/
def allows (offset length:Int64):List SourceBlock→Bool
 | []=>false
 | b::_=>!(offset<0||length<0||offset.toUInt64<b.base)
def range (offset length:Int64)(blocks:List SourceBlock):Option (List Bytes):=
 if allows offset length blocks then pieces offset.toInt.toNat length.toInt.toNat false blocks
 else none
def readNumber (kind:Rule.NumberReader)(offset:UInt64):List SourceBlock→Int64
 | []=>undefinedInteger
 | b::rest=>
  if b.base≤offset&&kind.bytes≤b.size&&offset≤b.stop-ofNat kind.bytes then
   match b.data with
   | none=>undefinedInteger
   | some data=>
    let i:=(offset-b.base).toNat
    let n:=if kind.bigEndian then data.be i kind.bytes else data.le i kind.bytes
    Int64.ofInt (if kind.signed then Int.bmod n (1 <<< (8*kind.bytes)) else n)
  else readNumber kind offset rest
end Source
end PatternScan.Scan