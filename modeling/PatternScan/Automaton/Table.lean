import PatternScan.Automaton.Trie
import PatternScan.Bitmask
/-! The rows of all states share one table. -/
namespace PatternScan.Automaton
open Array (replicate)
structure Transition where
 slot:Nat
 label:Nat
deriving Inhabited
structure Table where
 transitions:Array Transition
 lists:Array (Option Nat)
 pool:Array Registration
deriving Inhabited
def rowSpan:Nat:=257
structure Layout where
 transitions:Array Transition
 lists:Array (Option Nat)
 used:Bitmask
 hint:Nat
 slots:Array Nat
namespace Layout
def start (states:Nat):Layout:=
 let n:=512
 { transitions:=replicate n ⟨0,0⟩
   lists:=replicate n none
   used:=Bitmask.clear n
   hint:=1
   slots:=replicate states 0 }
def mask (t:Trie)(n:Nat):Bitmask:=
 (t.state n).children.foldl (fun m c=>m.set ((t.state c).input.toNat+1)) ((Bitmask.clear rowSpan).set 0)
def place (l:Layout)(t:Trie)(n:Nat):Nat×Layout:=
 let size:=l.transitions.size
 let (slot,hint):=l.used.fit (mask t n) size rowSpan l.hint
 let l:={l with hint:=hint}
 if size-rowSpan<slot then
  (slot,{ l with
     transitions:=l.transitions++replicate rowSpan ⟨0,0⟩
     lists:=l.lists++replicate rowSpan none
     used:=l.used.grow (Bitmask.wordsFor size+Bitmask.wordsFor rowSpan) })
 else (slot,l)
def reserve (l:Layout)(t:Trie)(slot:Nat)(n:Nat):Layout:=
 (t.state n).children.foldl (fun l c=>
  let label:=(t.state c).input.toNat+1
  { l with
    transitions:=l.transitions.setIfInBounds (slot+label) ⟨0,label⟩
    used:=l.used.set (slot+label)
    slots:=l.slots.setIfInBounds c (slot+label) }) l
def lay (l:Layout)(t:Trie)(n:Nat):Layout:=
 let (slot,l):=l.place t n
 let s:=t.state n
 let place:=l.slots.getD n 0
 let failure:=l.slots.getD s.failure 0
 let l:=
  { l with
    transitions:=(l.transitions.modify place fun x=>{x with slot:=slot}).setIfInBounds slot ⟨failure,0⟩
    lists:=l.lists.setIfInBounds slot s.first
    used:=l.used.set slot
    slots:=l.slots.setIfInBounds n slot }
 l.reserve t slot n
end Layout
def Trie.table (t:Trie):Table:=
 let t:=t.linked
 let l:=Layout.start t.states.size
 let l:=
  {l with lists:=l.lists.setIfInBounds 0 (t.state 0).first,used:=l.used.set 0}
 let l:=l.reserve t 0 0
 let l:=t.order.foldl (fun l n=>l.lay t n) l
 {transitions:=l.transitions,lists:=l.lists,pool:=t.pool}
namespace Table
def listFrom (t:Table):Nat→Option Nat→List Nat
 | 0,_=>[]
 | _,none=>[]
 | allowance+1,some n=>n::listFrom t allowance (t.pool.getD n default).next
def registrations (t:Table)(slot:Nat):List Nat:=
 t.listFrom t.pool.size (t.lists.getD slot none)
def step (t:Table)(input:UInt8):Nat→Nat→Nat
 | 0,_=>0
 | allowance+1,slot=>
  let label:=input.toNat+1
  let x:=t.transitions.getD (slot+label) default
  if x.label==label then x.slot
  else if slot==0 then 0
  else step t input allowance (t.transitions.getD slot default).slot
end Table
structure Statistics where
 total:Nat
 root:Nat
 tableSize:Nat
 longest:List Nat
 percentiles:List Nat
def Table.statistics (t:Table):Statistics:=
 let lengths:=(List.range t.lists.size).map fun slot=>(t.registrations slot).length
 let sorted:=((lengths.filter (0<·)).mergeSort (· ≤ ·)).toArray
 let c:=sorted.size
 let at_ (i:Nat):=sorted.getD i 0
 { total:=lengths.foldl (·+·) 0
   root:=lengths.headD 0
   tableSize:=t.transitions.size
   longest:=(List.range 10).map fun i=>if i<c then at_ (c-i-1) else 0
   percentiles:=[at_ 0,at_ (c*25/100),at_ (c*50/100),at_ (c*75/100),at_ (c-1)] }
end PatternScan.Automaton