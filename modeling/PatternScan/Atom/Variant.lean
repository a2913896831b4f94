import PatternScan.Atom.Choice
import PatternScan.Rule.StringFlags
/-! A chosen atom is searched in all the forms in which the string can occur. -/
namespace PatternScan
open Limits (atomLength atomQuality)
open List Bytes Limits Regex Atom
/-- An atom to be searched: how many bytes before it the string starts, and where its verifying code goes on. -/
structure AtomItem where
 atom:Atom
 backtrack:Nat
 entry:Regex.Entry
 deriving DecidableEq
namespace MaskedByte
/-- The values that a masked byte is given one after the other, its own first. Masks other than the three of
hexadecimal digits are left as they are. -/
def choices (b:MaskedByte):List UInt8:=
 if b.mask=0 then (List.range 256).map Nat.toUInt8
 else if b.mask=15 then (List.range (16-b.value.toNat/16)).map fun n=>b.value+16*n.toUInt8
 else if b.mask=240 then (List.range (16-b.value.toNat%16)).map fun n=>b.value+n.toUInt8
 else []

/-- A single choice is not taken, as the mask is dropped only if the first choice and the last differ. -/
def settle (b:MaskedByte):MaskedByte:=
 match b.choices with
 | c::_::_=>⟨c,255⟩
 | _=>b
def others (b:MaskedByte):List MaskedByte:=b.choices.tail.map fun c=>⟨c,255⟩
end MaskedByte
namespace Atom
def isWild (a:Atom):Bool:=a.any fun b=>!b.choices.isEmpty
def settle (a:Atom):Atom:=a.map MaskedByte.settle

/-- The copies of an atom that follow it after a visit. Those that differ in a byte are made when the bytes before are
settled, and go in front of earlier copies. -/
def copies:Atom→List Atom
 | []=>[]
 | b::bs=>(copies bs).map (b.settle::·)++b.others.map (·::bs)
def formCount (a:Atom):Nat:=a.foldr (fun b n=>max 1 b.choices.length*n) 1
def widen (a:Atom):Atom:=
 (a.flatMap fun b=>[⟨b.value,255⟩,⟨0,255⟩]).take atomLength
def spellings:List UInt8→List (List UInt8)
 | []=>[]
 | c::cs=>
  let rest:=spellings cs
  rest.map (c::·) ++
   if Bytes.isLetter c then
    let d:=Bytes.otherCase c
    (d::cs)::rest.map (d::·)
   else []
def applyKey (key:UInt8)(a:Atom):Atom:=a.map fun b=>⟨b.value ^^^ key,255⟩
end Atom
namespace AtomItem
/-- A list that is changed while it is gone through: the items passed, the last one first, and those
from the current one on. -/
structure Traversal where
 passed:List AtomItem
 ahead:List AtomItem
def Traversal.toList (t:Traversal):List AtomItem:=t.passed.reverse++t.ahead
def Traversal.visit:Traversal→Traversal
 | ⟨passed,[]⟩=>⟨passed,[]⟩
 | ⟨passed,x::rest⟩=>
  if x.atom.isWild then
   ⟨passed,{x with atom:=x.atom.settle}:: (x.atom.copies.map fun a=>{x with atom:=a})++rest⟩
  else ⟨x::passed,rest⟩
def Traversal.visits:Nat→Traversal→Traversal
 | 0,t=>t
 | n+1,t=>visits n t.visit
def expandAll (items:List AtomItem):List AtomItem:=
 (Traversal.visits (items.foldr (fun x n=>2*x.atom.formCount+n) 0) ⟨[],items⟩).toList
def wideForms (items:List AtomItem):List AtomItem:=
 (items.map fun x=>{x with atom:=x.atom.widen,backtrack:=x.backtrack*2%65536}).reverse
def otherCases (items:List AtomItem):List AtomItem:=
 (items.flatMap fun x=>
  (Atom.spellings x.atom.values).map fun s=>{x with atom:=Atom.ofBytes s}).reverse
def keyForms (lo hi:UInt8)(items:List AtomItem):List AtomItem:=
 (items.flatMap fun x=>
  (List.range (hi.toNat+1-lo.toNat)).map fun k=>
   {x with atom:=x.atom.applyKey (lo+k.toUInt8)}).reverse
def withWide (flags:StringFlags)(items:List AtomItem):List AtomItem:=
 if flags.wide then
  if flags.ascii then items++wideForms items else wideForms items
 else items
def withCases (flags:StringFlags)(items:List AtomItem):List AtomItem:=
 if flags.noCase then items++otherCases items else items
end AtomItem
structure AtomList where
 items:List AtomItem
 quality:Int
namespace AtomList
def ofPattern (rule:QualityRule)(flags:StringFlags)(root:Regex.Node)(entries:Array Regex.Entry):AtomList:=
 let (chosen,quality):=(AtomTree.ofPattern rule root).choose rule
 let items:=chosen.map fun c=>⟨c.atom,0,(entries[c.anchor]?).getD ⟨none,none⟩⟩
 let items:=AtomItem.expandAll items
 let items:=if flags.base64||flags.base64Wide then items else AtomItem.withWide flags items
 ⟨AtomItem.withCases flags items,quality⟩
def bestWindow (rule:QualityRule)(text:Bytes):Nat→Nat→Atom×Nat×Int→Atom×Nat×Int
 | 0,_,best=>best
 | n+1,i,(atom,start,quality)=>
  if quality<atomQuality then
   let window:=Atom.ofBytes ((text.extract i (i+atomLength)).toList)
   let q:=window.quality rule
   bestWindow rule text n (i+1) (if q>quality then (window,i,q) else (atom,start,quality))
  else (atom,start,quality)
def ofText (rule:QualityRule)(flags:StringFlags)(keys:UInt8×UInt8)(text:Bytes):
 AtomList:=
 let first:=Atom.ofBytes ((text.extract 0 atomLength).toList)
 let (atom,start,quality):=
  bestWindow rule text (text.size-atomLength) 1 (first,0,first.quality rule)
 let items:=[⟨atom,start%65536,⟨none,none⟩⟩]
 let items:=AtomItem.withCases flags (AtomItem.withWide flags items)
 let items:=if flags.xor then AtomItem.keyForms keys.1 keys.2 items else items
 ⟨items,items.foldl (fun q x=>min q (x.atom.quality rule)) quality⟩
def worst (rule:QualityRule)(items:List AtomItem):Int:=
 if items.isEmpty then 0
 else items.foldl (fun q x=>min q (x.atom.quality rule)) atomQuality
end AtomList
end PatternScan