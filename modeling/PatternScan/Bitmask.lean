/-! A growing mask of bits in words of 64, and the search for a place where another mask fits without a
collision. -/
namespace PatternScan
structure Bitmask where
 words:Array UInt64
namespace Bitmask
def wordsFor (n:Nat):Nat:=n/64+1
def clear (n:Nat):Bitmask:=⟨Array.replicate (wordsFor n) 0⟩
@[inline]
def word (m:Bitmask)(i:Nat):UInt64:=m.words.getD i 0
def set (m:Bitmask)(i:Nat):Bitmask:=
 ⟨m.words.modify (i/64) fun w=>w ||| (1 <<< (i%64).toUInt64)⟩
def isSet (m:Bitmask)(i:Nat):Bool:=
 (m.word (i/64) >>> (i%64).toUInt64) &&& 1=1
def grow (m:Bitmask)(words:Nat):Bitmask:=
 ⟨m.words++Array.replicate (words-m.words.size) 0⟩
@[inline]
def shiftedWord (b:Bitmask)(j k:Nat):UInt64:=
 let w:=b.word k <<< j.toUInt64
 if j>0&&k>0 then w ||| (b.word (k-1) >>> (64-j).toUInt64) else w
def collides (a b:Bitmask)(i j last:Nat):Nat→Nat→Bool
 | 0,_=>false
 | n+1,k=>
  (i+k≤last&&(shiftedWord b j k &&& a.word (i+k)) != 0)||collides a b i j last n (k+1)
def fitIn (a b:Bitmask)(i last lastB:Nat):Nat→Nat→Option Nat
 | 0,_=>none
 | n+1,j=>
  if collides a b i j last (lastB+1) 0 then fitIn a b i last lastB n (j+1) else some j
def firstOpen (a:Bitmask):Nat→Nat→Nat
 | 0,i=>i
 | n+1,i=>if a.word i=0xFFFFFFFFFFFFFFFF then firstOpen a n (i+1) else i
def fitFrom (a b:Bitmask)(lenA last lastB:Nat):Nat→Nat→Option Nat
 | 0,_=>none
 | n+1,i=>
  if a.word i=0xFFFFFFFFFFFFFFFF then fitFrom a b lenA last lastB n (i+1)
  else
   match fitIn a b i last lastB (min lenA 63+1) 0 with
   | some j=>some (i*64+j)
   | none=>fitFrom a b lenA last lastB n (i+1)

/-- The smallest place of a mask `b` with last bit `lenB` in the bits `0 … lenA` of `a`, from the word of `hint` on,
or `lenA`; and the hint for the next search. -/
def fit (a b:Bitmask)(lenA lenB hint:Nat):Nat×Nat:=
 let last:=lenA/64
 let start:=hint/64
 let first:=firstOpen a (last+1-start) start
 (((fitFrom a b lenA last (lenB/64) (last+1-first) first).getD lenA),first)
end Bitmask
end PatternScan
