import PatternScan.Atom.Variant
/-! Every atom leads from the root to a state, and the state lists what is registered for it. -/
namespace PatternScan.Automaton
/-- A string that an atom stands for, and the distance from the start of the string to the end of
the atom. -/
structure Registration where
 string:Nat
 backtrack:Nat
 entry:Regex.Entry
 next:Option Nat
deriving Inhabited
structure State where
 input:UInt8
 depth:Nat
 children:List Nat:=[]
 first:Option Nat:=none
 failure:Nat:=0
deriving Inhabited
structure Trie where
 states:Array State:=#[{input:=0,depth:=0}]
 pool:Array Registration:=#[]
namespace Trie
def state (t:Trie)(n:Nat):State:=t.states.getD n default
def child? (t:Trie)(n:Nat)(input:UInt8):Option Nat:=
 (t.state n).children.find? fun c=>(t.state c).input==input
def child (t:Trie)(n:Nat)(input:UInt8):Nat×Trie:=
 match t.child? n input with
 | some c=>(c,t)
 | none=>
  let c:=t.states.size
  let fresh:State:={input:=input,depth:=(t.state n).depth+1}
  let states:=t.states.push fresh
  (c,{t with states:=states.modify n fun s=>{s with children:=c::s.children}})
def register (t:Trie)(string:Nat)(item:AtomItem):Trie:=
 let (n,t):=item.atom.foldl (fun (n,t) b=>child t n b.value) (0,t)
 let s:=t.state n
 { states:=t.states.modify n fun s=>{s with first:=some t.pool.size}
   pool:=t.pool.push
    { string:=string
      backtrack:=(s.depth+item.backtrack)%65536
      entry:=item.entry
      next:=s.first } }
def add (t:Trie)(string:Nat)(items:List AtomItem):Trie:=
 items.foldl (fun t item=>t.register string item) t
def levels (t:Trie):Nat→List Nat→List Nat
 | 0,level=>level
 | allowance+1,level=>
  if level.isEmpty then []
  else level++levels t allowance (level.flatMap fun n=>(t.state n).children)
def order (t:Trie):List Nat:=t.levels t.states.size (t.state 0).children
def last (t:Trie):Nat→Nat→Nat
 | 0,n=>n
 | allowance+1,n=>
  match (t.pool.getD n default).next with
  | some m=>last t allowance m
  | none=>n
def append (t:Trie)(n:Nat)(list:Option Nat):Trie:=
 {t with pool:=t.pool.modify (t.last t.pool.size n) fun r=>{r with next:=list}}
def linkRoot (t:Trie)(n:Nat):Trie:=
 let root:=(t.state 0).first
 match (t.state n).first with
 | none=>{t with states:=t.states.modify n fun s=>{s with first:=root}}
 | some r=>
  let l:=t.last t.pool.size r
  if (t.pool.getD l default).backtrack==0 then t
  else {t with pool:=t.pool.modify l fun r=>{r with next:=root}}
def findFailure (t:Trie)(input:UInt8):Nat→Nat→Option Nat
 | 0,_=>none
 | allowance+1,n=>
  match t.child? n input with
  | some c=>some c
  | none=>if n==0 then none else findFailure t input allowance (t.state n).failure
def linkChild (t:Trie)(n c:Nat):Trie:=
 match t.findFailure (t.state c).input t.states.size (t.state n).failure with
 | none=>{t with states:=t.states.modify c fun s=>{s with failure:=0}}
 | some f=>
  let t:={t with states:=t.states.modify c fun s=>{s with failure:=f}}
  let list:=(t.state f).first
  match (t.state c).first with
  | none=>{t with states:=t.states.modify c fun s=>{s with first:=list}}
  | some r=>t.append r list
def linkState (t:Trie)(n:Nat):Trie:=
 let t:=t.linkRoot n
 (t.state n).children.foldl (fun t c=>t.linkChild n c) t
def covers (t:Trie)(a b:Nat):Bool:=
 (t.state b).children.all fun c=>(t.child? a (t.state c).input).isSome
def shorten (t:Trie)(n:Nat):Trie:=
 let f:=(t.state n).failure
 if f != 0&&t.covers n f then
  let g:=(t.state f).failure
  {t with states:=t.states.modify n fun s=>{s with failure:=g}}
 else t
def linked (t:Trie):Trie:=
 let order:=t.order
 order.foldl shorten (order.foldl linkState t)
end Trie
end PatternScan.Automaton
