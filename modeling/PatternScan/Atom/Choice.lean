import PatternScan.Regex.Code
/-! From a pattern a tree of possible atoms is built: of the children of an "any of" node one is enough,
of those of an "all of" node every one is needed. -/
namespace PatternScan
open Limits Regex
/-! An atom is a short run of bytes that every match of a string contains. -/
structure MaskedByte where
 value:UInt8
 mask:UInt8
 deriving DecidableEq
abbrev Atom:=List MaskedByte
namespace Atom
def ofBytes (l:List UInt8):Atom:=l.map fun c=>⟨c,255⟩
def values (a:Atom):List UInt8:=a.map (·.value)
def masks (a:Atom):List UInt8:=a.map (·.mask)

/-- Drops unknown bytes at both ends. If unknown bytes are as many as known ones, only the first byte is kept. The
number tells how many were dropped in front. -/
def trim (a:Atom):Nat×Atom:=
 let unknown (b:MaskedByte):Bool:=b.mask=0
 let dropped:=(a.takeWhile unknown).length
 let core:=((a.drop dropped).reverse.dropWhile unknown).reverse
 if core.isEmpty then (0,[])
 else
  let blank:=core.countP unknown
  let full:=core.countP fun b=>b.mask=255
  (dropped,if blank≥full then core.take 1 else core)
end Atom
/-! Long atoms of uncommon and different bytes are found rarely by chance. -/
inductive QualityRule where
 | heuristic
 | table (entries:Bytes)
namespace Atom
def points (b:MaskedByte):Int:=
 if b.mask=0 then -10
 else if b.mask=15||b.mask=240 then 4
 else if b.mask=255 then
  if b.value=0||b.value=0x20||b.value=0xCC||b.value=0xFF then 12
  else if Bytes.isLetter b.value then 18
  else 20
 else 0
def knownValues (a:Atom):List UInt8:=
 ((a.filter fun b=>b.mask=255).map (·.value)).eraseDups
def isCommon (c:UInt8):Bool:=
 c=0||c=0x20||c=0x90||c=0xCC||c=0xFF
def heuristicQuality (a:Atom):Int:=
 let base:=(a.map points).foldr (·+·) 0
 let bonus:Int:=
  match knownValues a with
  | [c]=>if isCommon c then -10*a.length else 2
  | known=>2*known.length
 atomQuality-22*atomLength+(base+bonus)
def compareEntry (entries:Bytes)(start:Nat):Nat→Atom→Int
 | _,[]=>0
 | i,b::bs=>
  let r:Int:=((entries.byteAt (start+i) &&& b.mask).toNat:Int)-b.value.toNat
  if r=0 then compareEntry entries start (i+1) bs else r
def leastUp (entries:Bytes)(a:Atom):Nat→Nat→Nat→Nat
 | 0,_,low=>low
 | n+1,i,low=>
  if compareEntry entries (5*i) 0 a=0 then
   leastUp entries a n (i+1) (min low (entries.byteAt (5*i+4)).toNat)
  else low
def leastDown (entries:Bytes)(a:Atom):Nat→Nat→Nat→Nat
 | 0,_,low=>low
 | n+1,i,low=>
  if compareEntry entries (5*(i-1)) 0 a=0 then
   leastDown entries a n (i-1) (min low (entries.byteAt (5*(i-1)+4)).toNat)
  else low
def searchTable (entries:Bytes)(a:Atom):Nat→Nat→Nat→Int
 | 0,_,_=>atomQuality
 | fuel+1,first,stop=>
  if stop>first then
   let middle:=first+(stop-first)/2
   let c:=compareEntry entries (5*middle) 0 a
   if c<0 then searchTable entries a fuel (middle+1) stop
   else if c>0 then searchTable entries a fuel first middle
   else
    let q:=(entries.byteAt (5*middle+4)).toNat
    let q:=leastUp entries a (stop-(middle+1)) (middle+1) q
    let q:=leastDown entries a (middle-first) middle q
    ((q >>> (atomLength-a.length):Nat):Int)
  else atomQuality
def quality (rule:QualityRule)(a:Atom):Int:=
 match rule with
 | .heuristic=>heuristicQuality a
 | .table entries=>searchTable entries a (entries.size/5+1) 0 (entries.size/5)
end Atom
inductive AtomTree where
 | leaf (atom:Atom)(anchor:Nat)
 | allOf (children:List AtomTree)
 | anyOf (children:List AtomTree)
structure ChosenAtom where
 atom:Atom
 anchor:Nat
 deriving DecidableEq
namespace AtomTree
mutual
def choose (rule:QualityRule):AtomTree→List ChosenAtom×Int
 | .leaf atom anchor=>
  let (shift,atom):=atom.trim
  if atom.isEmpty then ([],0) else ([⟨atom,anchor+shift⟩],atom.quality rule)
 | .anyOf children=>chooseBest rule children [] 0
 | .allOf children=>chooseAll rule children [] atomQuality
def chooseBest (rule:QualityRule):List AtomTree→List ChosenAtom→Int→List ChosenAtom×Int
 | [],best,quality=>(best,quality)
 | t::ts,best,quality=>
  let (atoms,q):=t.choose rule
  let (best,quality):=if q>quality then (atoms,q) else (best,quality)
  if quality=atomQuality then (best,quality) else chooseBest rule ts best quality
def chooseAll (rule:QualityRule):List AtomTree→List ChosenAtom→Int→List ChosenAtom×Int
 | [],all,quality=>(all,quality)
 | t::ts,all,quality=>
  let (atoms,q):=t.choose rule
  chooseAll rule ts (atoms++all) (min quality q)
end
structure Piece where
 byte:MaskedByte
 anchor:Nat

/-- A tree being built: the last pieces without a break, at most four of them; the best atom of those before them,
with its anchor and quality; and the finished children. -/
structure Builder where
 recent:List Piece
 best:Atom×Nat
 bestQuality:Int
 children:Array AtomTree
namespace Builder
def empty:Builder:=⟨[],([],0),-1,#[]⟩
def recentAtom (b:Builder):Atom×Nat:=
 let (shift,atom):=Atom.trim (b.recent.map (·.byte))
 (atom,((b.recent[shift]?).map (·.anchor)).getD 0)
def push (rule:QualityRule)(b:Builder)(p:Piece):Builder:=
 if b.recent.length<atomLength then {b with recent:=b.recent++[p]}
 else if b.bestQuality<atomQuality then
  let a:=b.recentAtom
  let q:=a.1.quality rule
  let b:=if q>b.bestQuality then {b with best:=a,bestQuality:=q} else b
  {b with recent:=b.recent.drop 1++[p]}
 else b
def flush (rule:QualityRule)(b:Builder):Builder:=
 if b.recent.isEmpty then {b with bestQuality:=-1}
 else
  let a:=b.recentAtom
  let (atom,anchor):=if a.1.quality rule>b.bestQuality then a else b.best
  {b with recent:=[],bestQuality:=-1,children:=b.children.push (.leaf atom anchor)}
mutual
def add (rule:QualityRule)(anchor:Nat):Node→Builder→Builder
 | .literal c _,b=>b.push rule ⟨⟨c,255⟩,anchor⟩
 | .masked v m,b=>b.push rule ⟨⟨v,m⟩,anchor⟩
 | .any,b=>b.push rule ⟨⟨0,0⟩,anchor⟩
 | .cat parts,b=>addList rule anchor parts b
 | .alt l r,b=>
  let left:=(add rule anchor l empty).flush rule
  let right:=(add rule (anchor+l.anchors) r empty).flush rule
  let both:=.allOf [.anyOf left.children.toList,.anyOf right.children.toList]
  flush rule {b with children:=b.children.push both}
 | .plus _ e,b=>(add rule anchor e b).flush rule
 | .range lo _ _ e,b=>
  (Nat.repeat (add rule anchor e) (min lo atomLength) b).flush rule
 | _,b=>b.flush rule
def addList (rule:QualityRule)(anchor:Nat):List Node→Builder→Builder
 | [],b=>b
 | n::ns,b=>addList rule (anchor+n.anchors) ns (add rule anchor n b)
end
end Builder
def ofPattern (rule:QualityRule)(root:Node):AtomTree:=
 .anyOf (((Builder.add rule 0 root Builder.empty).flush rule).children.toList)
end AtomTree
end PatternScan
