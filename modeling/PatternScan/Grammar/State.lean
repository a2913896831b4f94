import Std.Data.HashMap
/-! A state of a shift-reduce parser is a set of productions with a dot. -/
namespace PatternScan.Grammar
/-! Context-free grammars with operator precedence; tokens and phrases (the nonterminals) are numbered
separately. -/
inductive Symbol where
 | token (number:Nat)
 | phrase (number:Nat)
 deriving DecidableEq,Hashable
inductive Grouping where
 | left | right
 deriving DecidableEq
structure Level where
 rank:Nat
 grouping:Grouping
 deriving DecidableEq
structure Production where
 result:Nat
 parts:List Symbol
 level:Option Level:=none
deriving Inhabited
end PatternScan.Grammar
namespace PatternScan
structure Grammar where
 tokenCount:Nat
 phraseCount:Nat
 productions:Array Grammar.Production
 levelOf:Nat→Option Grammar.Level
namespace Grammar
def endToken:Nat:=0
def errorToken:Nat:=1
def productionsOf (g:Grammar)(phrase:Nat):List Nat:=
 (List.range g.productions.size).filter fun i=>
  i != 0&&(g.productions[i]?.map (·.result))==some phrase
def settle {α:Type}(step:α→α×Bool):Nat→α→α
 | 0,a=>a
 | n+1,a=>
  match step a with
  | (b,true)=>settle step n b
  | (b,false)=>b
def nullableRound (g:Grammar)(known:Array Bool):Array Bool×Bool:=
 g.productions.foldl (fun (known,changed) p=>
  let empty:=p.parts.all fun
   | .token _=>false
   | .phrase n=>known.getD n false
  if empty&&!known.getD p.result false then (known.setIfInBounds p.result true,true)
  else (known,changed)) (known,false)
def nullable (g:Grammar):Array Bool:=
 settle g.nullableRound (g.phraseCount+1) (Array.replicate g.phraseCount false)
end Grammar
end PatternScan
namespace PatternScan.Grammar
structure Item where
 production:Nat
 dot:Nat
 deriving DecidableEq,Hashable
namespace Item
def next? (g:Grammar)(item:Item):Option Symbol:=
 g.productions[item.production]?.bind (·.parts[item.dot]?)
def finished (g:Grammar)(item:Item):Bool:=
 (item.next? g).isNone
def advance (item:Item):Item:=
 {item with dot:=item.dot+1}
def before (a b:Item):Bool:=
 a.production<b.production||(a.production==b.production&&a.dot<b.dot)
end Item
structure State where
 kernel:List Item
 moves:List (Symbol×Nat):=[]
 reductions:List Nat:=[]
deriving Inhabited
def firstRound (g:Grammar)(known:Array (List Nat)):Array (List Nat)×Bool:=
 g.productions.foldl (fun (known,changed) p=>
  match p.parts.head? with
  | some (.phrase n)=>
   let have_:=known.getD p.result []
   let fresh:=(known.getD n []).filter fun m=>!have_.contains m
   if fresh.isEmpty then (known,changed)
   else (known.setIfInBounds p.result (have_++fresh),true)
  | _=>(known,changed)) (known,false)
def firstPhrases (g:Grammar):Array (List Nat):=
 settle g.firstRound (g.phraseCount*g.phraseCount+1) ((Array.range g.phraseCount).map fun n=>[n])
structure Outline where
 grammar:Grammar
 first:Array (List Nat)
 productions:Array (List Nat)
def outline (g:Grammar):Outline:=
 { grammar:=g
   first:=g.firstPhrases
   productions:=(Array.range g.phraseCount).map g.productionsOf }
def Outline.closure (o:Outline)(kernel:List Item):List Item:=
 let phrases:=kernel.foldl (fun phrases item=>
  match item.next? o.grammar with
  | some (.phrase n)=>
   phrases++(o.first.getD n []).filter fun m=>!phrases.contains m
  | _=>phrases) []
 kernel++phrases.flatMap fun n=>(o.productions.getD n []).map fun p=>⟨p,0⟩
def Outline.moves (o:Outline)(items:List Item):List (Symbol×List Item):=
 items.foldl (fun moves item=>
  match item.next? o.grammar with
  | none=>moves
  | some symbol=>
   if moves.any (·.1==symbol) then
    moves.map fun (s,kernel)=>if s==symbol then (s,kernel++[item.advance]) else (s,kernel)
   else moves++[(symbol,[item.advance])]) []
structure Collection where
 states:Array State
 numbers:Std.HashMap (List Item) Nat
def Collection.number (c:Collection)(kernel:List Item):Nat×Collection:=
 let kernel:=kernel.mergeSort fun a b=>!b.before a
 match c.numbers[kernel]? with
 | some n=>(n,c)
 | none=>
  (c.states.size,
   { states:=c.states.push {kernel:=kernel}
     numbers:=c.numbers.insert kernel c.states.size })
def Collection.expand (c:Collection)(o:Outline)(n:Nat)(state:State):Collection:=
 let items:=o.closure state.kernel
 let (moves,c):=(o.moves items).foldl (fun (moves,c) (symbol,kernel)=>
  let (target,c):=Collection.number c kernel
  (moves++[(symbol,target)],c)) (([]:List (Symbol×Nat)),c)
 let reductions:=(items.filter (·.finished o.grammar)).map (·.production)
 let reductions:=reductions.mergeSort (· ≤ ·)
 {c with states:=c.states.setIfInBounds n {state with moves:=moves,reductions:=reductions}}
def Collection.complete (o:Outline):Nat→Nat → Collection → Collection
 | 0,_,c=>c
 | allowance+1,n,c=>
  match c.states[n]? with
  | none=>c
  | some state=>Collection.complete o allowance (n+1) (c.expand o n state)
def stateLimit:Nat:=4096
def states (g:Grammar):Array State:=
 let start:List Item:=[⟨0,0⟩]
 (Collection.complete g.outline stateLimit 0
  {states:=#[{kernel:=start}],numbers:=(∅:Std.HashMap _ _).insert start 0}).states
def State.go? (s:State)(symbol:Symbol):Option Nat:=
 (s.moves.find? (·.1==symbol)).map (·.2)
def follow? (states:Array State):Nat→List Symbol→Option Nat
 | n,[]=>some n
 | n,symbol::rest=>(states[n]?.bind (·.go? symbol)).bind fun m=>follow? states m rest
end PatternScan.Grammar
