namespace PatternScan
open ByteArray
abbrev Bytes:=ByteArray
namespace Bytes
@[inline]
def byteAt (b:Bytes)(i:Nat):UInt8:=
 if h:i<b.size then b.get i h else 0
@[inline]
def byteAtInt (b:Bytes)(i:Int):UInt8:=
 if i<0 then 0 else b.byteAt i.toNat
def slice (b:Bytes)(start len:Nat):Bytes:=
 b.extract start (start+len)
def ofText (s:String):Bytes:=s.toUTF8
def latin1 (b:Bytes):String:=
 b.foldl (fun s c=>s.push (Char.ofNat c.toNat)) ""
def ofList (l:List UInt8):Bytes:=mk l.toArray
def indexOf (b:Bytes)(c:UInt8)(i:Nat):Nat:=
 if h:i<b.size then
  if b.get i h=c then i else indexOf b c (i+1)
 else b.size
termination_by b.size-i
def indexBefore (b:Bytes)(c:UInt8)(i stop:Nat):Nat:=
 if i<stop then
  if b.byteAt i=c then i else indexBefore b c (i+1) stop
 else stop
termination_by stop-i
def untilNul (b:Bytes):Bytes:=b.extract 0 (b.indexOf 0 0)
@[inline]
def lower (c:UInt8):UInt8:=if 65≤c&&c≤90 then c+32 else c
@[inline]
def otherCase (c:UInt8):UInt8:=
 if 65≤c&&c≤90 then c+32 else if 97≤c&&c≤122 then c-32 else c
@[inline]
def isDigit (c:UInt8):Bool:=48≤c&&c≤57
@[inline]
def isLetter (c:UInt8):Bool:=(65≤c&&c≤90)||(97≤c&&c≤122)
@[inline]
def isAlnum (c:UInt8):Bool:=isDigit c||isLetter c
@[inline]
def isWord (c:UInt8):Bool:=isAlnum c||c=95
@[inline]
def isSpace (c:UInt8):Bool:=c=32||(9≤c&&c≤13)
@[inline]
def isHexDigit (c:UInt8):Bool:=
 isDigit c||(65≤c&&c≤70)||(97≤c&&c≤102)
def hexValue (c:UInt8):Nat:=
 if isDigit c then (c-48).toNat
 else if 65≤c&&c≤70 then (c-55).toNat
 else if 97≤c&&c≤102 then (c-87).toNat
 else 0
def hexDigit (n:Nat):Char:=
 if n<10 then Char.ofNat (48+n) else Char.ofNat (87+n)
def hex (b:Bytes):String:=
 b.foldl (fun s c=>(s.push (hexDigit (c.toNat/16))).push (hexDigit (c.toNat%16))) ""
def widen (b:Bytes):Bytes:=
 b.foldl (fun w c=>(w.push c).push 0) empty
def replicate (n:Nat)(c:UInt8):Bytes:=
 n.fold (fun _ _ b=>b.push c) empty
def setByte (b:Bytes)(i:Nat)(c:UInt8):Bytes:=
 if h:i<b.size then b.set i c h else b
def agreesFrom (b p:Bytes)(i j:Nat):Bool:=
 if h:j<p.size then
  if i+j<b.size&&b.byteAt (i+j)=p.get j h then agreesFrom b p i (j+1) else false
 else true
termination_by p.size-j
def occursAt (b p:Bytes)(i:Nat):Bool:=agreesFrom b p i 0
def anyByte (b:Bytes)(test:UInt8→Bool):Bool:=
 b.foldl (fun r c=>r||test c) false
def le (b:Bytes)(i:Nat):Nat→Nat
 | 0=>0
 | n+1=>(b.byteAt i).toNat+256*le b (i+1) n
def be (b:Bytes)(i n:Nat):Nat:=
 n.fold (fun k _ r=>r*256+(b.byteAt (i+k)).toNat) 0
def word (big:Bool)(b:Bytes)(i n:Nat):Nat:=if big then b.be i n else b.le i n
def concat (parts:List Bytes):Bytes:=parts.foldr (·++·) empty
def pushLe (b:Bytes)(v:Nat):Nat→Bytes
 | 0=>b
 | n+1=>pushLe (b.push v.toUInt8) (v/256) n
end Bytes
structure ByteSet where
 w0:UInt64
 w1:UInt64
 w2:UInt64
 w3:UInt64
 deriving DecidableEq
namespace ByteSet
def empty:ByteSet:=⟨0,0,0,0⟩
@[inline]
def word (s:ByteSet)(c:UInt8):UInt64:=
 if c<64 then s.w0 else if c<128 then s.w1 else if c<192 then s.w2 else s.w3
def contains (s:ByteSet)(c:UInt8):Bool:=
 (s.word c >>> (c &&& 63).toUInt64) &&& 1=1
def insert (s:ByteSet)(c:UInt8):ByteSet:=
 let bit:UInt64:=1 <<< (c &&& 63).toUInt64
 if c<64 then {s with w0:=s.w0 ||| bit}
 else if c<128 then {s with w1:=s.w1 ||| bit}
 else if c<192 then {s with w2:=s.w2 ||| bit}
 else {s with w3:=s.w3 ||| bit}
def union (s t:ByteSet):ByteSet:=
 ⟨s.w0 ||| t.w0,s.w1 ||| t.w1,s.w2 ||| t.w2,s.w3 ||| t.w3⟩
def complement (s:ByteSet):ByteSet:=⟨~~~s.w0,~~~s.w1,~~~s.w2,~~~s.w3⟩
def ofTest (test:UInt8→Bool):ByteSet:=
 (256).fold (fun i _ s=>if test i.toUInt8 then s.insert i.toUInt8 else s) empty
def range (lo hi:UInt8):ByteSet:=ofTest fun c=>lo≤c&&c≤hi
def bitmap (s:ByteSet):Bytes:=
 [s.w0,s.w1,s.w2,s.w3].foldl (fun b w=>Bytes.pushLe b w.toNat 8) ByteArray.empty
end ByteSet
/-! Decimal and hexadecimal numerals of fixed width. -/
def signed (bits:Nat)(n:Int):Int:=n.bmod (1 <<< bits)
namespace Bytes
def digitsFrom (b:Bytes)(i:Nat):Nat:=
 if h:i<b.size then
  if isDigit (b.get i h) then digitsFrom b (i+1)+1 else 0
 else 0
termination_by b.size-i
def decimal (b:Bytes)(i n:Nat):Nat:=
 n.fold (fun k _ r=>r*10+(b.byteAt (i+k)-48).toNat) 0

/-- The decimal numeral from an index on, as a signed word of 32 bits. A numeral beyond 63 bits counts as the largest
before it is cut off. -/
def decimal32 (b:Bytes)(i:Nat):Int:=
 let n:=b.decimal i (b.digitsFrom i)
 signed 32 (min n (0x7fffffffffffffff):Nat)

/-- The value of a hexadecimal numeral as a word of 64 bits. The digit at index `i` of `n` bytes counts `16 ^ (n - 1 -
i)` with the shift taken modulo 64, and the first other byte ends the numeral. -/
def hexNumeral (b:Bytes):UInt64:=
 let n:=b.untilNul.size
 go b n n 0 0
where
 go (b:Bytes) (n:Nat):Nat→Nat→UInt64→UInt64
  | 0,_,acc=>acc
  | left+1,i,acc=>
   let c:=b.byteAt i
   if isHexDigit c then
    go b n left (i+1) (acc ||| ((hexValue c).toUInt64 <<< ((n-i-1)*4).toUInt64))
   else acc
def commonFrom (view:UInt8→UInt8)(a b:Bytes)(i:Nat):Nat:=
 if h:i<a.size∧i<b.size then
  if view (a.get i h.1)=view (b.get i h.2) then commonFrom view a b (i+1) else i
 else i
termination_by a.size-i
def compareBy (view:UInt8→UInt8)(a b:Bytes):Int:=
 let i:=commonFrom view a b 0
 if i=a.size&&i=b.size then 0
 else if i=a.size then -1
 else if i=b.size then 1
 else if (a.byteAt i).toInt8<(b.byteAt i).toInt8 then -1
 else 1
def compare (a b:Bytes):Int:=compareBy id a b
def compareNoCase (a b:Bytes):Int:=compareBy lower a b
def agreesBy (view:UInt8→UInt8)(b p:Bytes)(i j:Nat):Bool:=
 if h:j<p.size then
  if i+j<b.size&&view (b.byteAt (i+j))=view (p.get j h) then
   agreesBy view b p i (j+1)
  else false
 else true
termination_by p.size-j
def containsFrom (view:UInt8→UInt8)(b p:Bytes):Nat→Nat→Bool
 | 0,_=>false
 | n+1,i=>agreesBy view b p i 0||containsFrom view b p n (i+1)
def containsBy (view:UInt8→UInt8)(b p:Bytes):Bool:=
 p.size≤b.size&&containsFrom view b p (b.size-p.size+1) 0
def contains (b p:Bytes):Bool:=containsBy id b p
def containsNoCase (b p:Bytes):Bool:=containsBy lower b p
def startsWith (b p:Bytes):Bool:=p.size≤b.size&&agreesBy id b p 0 0
def startsWithNoCase (b p:Bytes):Bool:=p.size≤b.size&&agreesBy lower b p 0 0
def endsWith (b p:Bytes):Bool:=p.size≤b.size&&agreesBy id b p (b.size-p.size) 0
def endsWithNoCase (b p:Bytes):Bool:=p.size≤b.size&&agreesBy lower b p (b.size-p.size) 0
def overwrite (dst:Bytes)(i:Nat)(src:Bytes):Bytes:=
 src.size.fold (fun k _ d=>setByte d (i+k) (src.byteAt k)) dst
def copyInto (dst src:Bytes):Nat×Bytes:=
 let text:=src.untilNul
 let n:=min text.size (dst.size-1)
 (text.size,overwrite dst 0 ((text.extract 0 n).push 0))
def appendInto (dst src:Bytes):Nat×Bytes:=
 let text:=src.untilNul
 let start:=dst.untilNul.size
 let n:=min text.size (dst.size-start-1)
 (start+text.size,if start=dst.size then dst else overwrite dst start ((text.extract 0 n).push 0))
def lowBytes (src:Bytes):Nat→Nat→Bytes→Bytes
 | 0,_,acc=>acc
 | fuel+1,i,acc=>
  let c:=src.byteAt i
  if c=0 then acc else lowBytes src fuel (i+2) (acc.push c)
def narrowInto (dst src:Bytes):Nat×Bytes:=
 let text:=lowBytes src src.size 0 ByteArray.empty
 let n:=min text.size (dst.size-1)
 (text.size,overwrite dst 0 ((text.extract 0 n).push 0))
def wideLength (src:Bytes):Nat→Nat→Nat
 | 0,_=>0
 | fuel+1,i=>
  if src.byteAt i=0&&src.byteAt (i+1)=0 then 0 else wideLength src fuel (i+2)+1
def compareWide (wide plain:Bytes):Nat→Nat→Int
 | 0,_=>0
 | fuel+1,i=>
  let c:=plain.byteAt i
  let lo:=wide.byteAt (2*i)
  let hi:=wide.byteAt (2*i+1)
  if c≠0&&lo=c&&hi=0 then compareWide wide plain fuel (i+1)
  else if hi≠0 then 1
  else lo.toInt8.toInt-c.toInt8.toInt
end Bytes
end PatternScan
