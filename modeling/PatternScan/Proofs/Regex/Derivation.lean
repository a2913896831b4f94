import Mathlib
import PatternScan.Regex.Node
/-! A derivation of a pattern is a word that the pattern matches, in which every byte carries the number
of the anchor that matched it, if it was an anchor. -/
namespace PatternScan.Regex
open Bytes Limits
structure Comparison where
 ignoreCase:Bool
 dotAll:Bool
abbrev Derivation:=List (UInt8×Option Nat)
def Derivation.word (d:Derivation):List UInt8:=d.map Prod.fst
namespace Node
def takes (c:Comparison):Node→UInt8→Bool
 | .literal x _,b=>if c.ignoreCase then lower b=lower x else b=x
 | .notLiteral x,b=>b≠x
 | .masked v m,b=>b &&& m=v
 | .maskedNot v m,b=>b &&& m≠v
 | .any,b=>c.dotAll||b≠10
 | .wordChar,b=>isWord b
 | .nonWordChar,b=>!isWord b
 | .space,b=>isSpace b
 | .nonSpace,b=>!isSpace b
 | .digit,b=>isDigit b
 | .nonDigit,b=>!isDigit b
 | .cls k,b=>k.accepts b c.ignoreCase
 | _,_=>false
mutual
/-- The derivations of a pattern with `anchor` anchors to the left of it. A repetition up to the largest number or
above is not bounded. -/
def Derives (c:Comparison)(anchor:Nat):Node→Derivation→Prop
 | .empty,d | .start,d | .stop,d | .boundary,d | .nonBoundary,d=>d=[]
 | .gap lo hi _,d=>lo≤d.length∧(d.length≤hi∨regexRepeat≤hi)∧∀x∈d,Node.any.takes c x.1=true∧x.2=none
 | .cat parts,d=>DerivesList c anchor parts d
 | .alt l r,d=>Derives c anchor l d∨Derives c (anchor+l.anchors) r d
 | .star _ e,d=>∃ds:List Derivation,(∀x∈ds,Derives c anchor e x)∧d=ds.flatten
 | .plus _ e,d=>∃ds:List Derivation,ds≠[]∧(∀x∈ds,Derives c anchor e x)∧d=ds.flatten
 | .range lo hi _ e,d=>
  ∃ds:List Derivation,lo≤ds.length∧(ds.length≤hi∨regexRepeat≤hi)∧
   (∀x∈ds,Derives c anchor e x)∧d=ds.flatten
 | n,d=>∃b,n.takes c b=true∧d=[(b,if n.anchors=1 then some anchor else none)]
def DerivesList (c:Comparison)(anchor:Nat):List Node→Derivation→Prop
 | [],d=>d=[]
 | n::ns,d=>∃x y,Derives c anchor n x∧DerivesList c (anchor+n.anchors) ns y∧d=x++y
end
end Node
end PatternScan.Regex
