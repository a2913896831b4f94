import PatternScan.Bytes.Basic
import PatternScan.Limits
namespace PatternScan.Regex
open Bytes Limits
structure ByteClass where
 negated:Bool
 members:ByteSet
 deriving DecidableEq
def ByteClass.accepts (k:ByteClass)(c:UInt8)(ignoreCase:Bool):Bool:=
 let member:=k.members.contains c||(ignoreCase&&k.members.contains (otherCase c))
 if k.negated then !member else member
inductive Node where
 /-- One byte; `verbatim` says that it stood in the text as itself, not as an escape. -/
 | literal (byte:UInt8)(verbatim:Bool)
 | notLiteral (byte:UInt8)
 | masked (value mask:UInt8)
 | maskedNot (value mask:UInt8)
 | any | wordChar | nonWordChar | space | nonSpace | digit | nonDigit
 | cls (k:ByteClass)
 | empty | start | stop | boundary | nonBoundary
 | gap (lo hi:Nat)(greedy:Bool)
 | cat (parts:List Node)
 | alt (left right:Node)
 | star (greedy:Bool)(body:Node)
 | plus (greedy:Bool)(body:Node)
 | range (lo hi:Nat)(greedy:Bool)(body:Node)
structure Traits where
 linear:Bool
 dotAll:Bool
 greedy:Bool
 ungreedy:Bool
 deriving DecidableEq
namespace Traits
def none:Traits:=⟨false,false,false,false⟩
def toNat (t:Traits):Nat:=
 (if t.linear then 0x02 else 0)+(if t.dotAll then 0x80 else 0) +
  (if t.greedy then 0x400 else 0)+(if t.ungreedy then 0x800 else 0)
end Traits
structure Pattern where
 root:Node
 traits:Traits
namespace Node
mutual
def anchors:Node→Nat
 | .literal _ _ | .masked _ _ | .any=>1
 | .cat parts=>anchorsList parts
 | .alt l r=>l.anchors+r.anchors
 | .star _ e | .plus _ e | .range _ _ _ e=>e.anchors
 | _=>0
def anchorsList:List Node→Nat
 | []=>0
 | n::ns=>n.anchors+anchorsList ns
end
def literalBytes? : List Node→Option (List UInt8)
 | []=>some []
 | .literal b _::ns=>(literalBytes? ns).map (b::·)
 | _::_=>none
def literal? : Node→Option Bytes
 | .literal b _=>some (ofList [b])
 | .cat parts=>(literalBytes? parts).map ofList
 | _=>none
mutual
def unboundedDot:Node→Bool
 | .star _ .any | .plus _ .any=>true
 | .gap _ hi _=>hi=regexRepeat
 | .cat parts=>unboundedDotList parts
 | _=>false
def unboundedDotList:List Node→Bool
 | []=>false
 | n::ns=>n.unboundedDot||unboundedDotList ns
end
structure Cut where
 before:List Node
 lo:Nat
 hi:Nat
 after:List Node

/-- Finds the first gap that is too long to stay inside one string, with parts on both sides; `done` holds the parts
already passed, the last one first. -/
def findCut (done:List Node):List Node→Option Cut
 | []=>none
 | .gap lo hi false::rest=>
  if !done.isEmpty&&!rest.isEmpty&&(lo>chainingGap||hi>chainingGap) then
   some ⟨done.reverse,lo,hi,rest⟩
  else findCut (.gap lo hi false::done) rest
 | n::rest=>findCut (n::done) rest
end Node
def Pattern.split (p:Pattern):Pattern×Option (Nat×Nat×Pattern):=
 match p.root with
 | .cat parts=>
  match Node.findCut [] parts with
  | some c=>({p with root:=.cat c.before},some (c.lo,c.hi,{p with root:=.cat c.after}))
  | none=>(p,none)
 | _=>(p,none)
end PatternScan.Regex
