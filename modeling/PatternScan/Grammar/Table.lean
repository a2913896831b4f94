import PatternScan.Grammar.State
namespace PatternScan.Grammar
/-! Which tokens may follow a phrase that a state has just passed. -/
structure Passage where
 state:Nat
 phrase:Nat
 target:Nat
deriving Inhabited
structure Passages where
 all:Array Passage
 numbers:Std.HashMap (Nat×Nat) Nat
def passages (states:Array State):Passages:=
 let all:=(Array.range states.size).flatMap fun n=>
  ((states.getD n default).moves.filterMap fun
   | (.phrase p,target)=>some {state:=n,phrase:=p,target:=target}
   | _=>none).toArray
 { all:=all
   numbers:=(List.range all.size).foldl (fun numbers i=>
    let p:=all.getD i default
    numbers.insert (p.state,p.phrase) i) ∅ }
def State.shifted (s:State):Nat:=
 s.moves.foldl (fun set (symbol,_)=>
  match symbol with
  | .token t=>set ||| (1 <<< t)
  | .phrase _=>set) 0
def traverse (states:Array State)(numbers:Std.HashMap (Nat×Nat) Nat)(empty:Array Bool)
 (state:Nat):List Symbol→List Nat×Option Nat
 | []=>([],some state)
 | symbol::rest=>
  match states[state]?.bind (·.go? symbol) with
  | none=>([],none)
  | some target=>
   let (found,last):=traverse states numbers empty target rest
   let restEmpty:=rest.all fun
    | .token _=>false
    | .phrase n=>empty.getD n false
   match symbol with
   | .phrase n=>
    if restEmpty then (((numbers[(state,n)]?).toList++found),last) else (found,last)
   | .token _=>(found,last)
def spreadRound (depends:Array (List Nat))(sets:Array Nat):Array Nat×Bool:=
 (List.range sets.size).foldl (fun (sets,changed) i=>
  let old:=sets.getD i 0
  let new:=(depends.getD i []).foldl (fun s j=>s ||| sets.getD j 0) old
  if new==old then (sets,changed) else (sets.setIfInBounds i new,true)) (sets,false)
def spread (depends:Array (List Nat))(sets:Array Nat):Array Nat:=
 settle (spreadRound depends) (sets.size+1) sets
def record (lists:Array (List Nat))(index value:Nat):Array (List Nat):=
 lists.modify index (value::·)
def lookaheads (g:Grammar)(states:Array State):Array (List (Nat×Nat)):=
 let ps:=passages states
 let empty:=g.nullable
 let none_:Array (List Nat):=Array.replicate ps.all.size []
 let direct:=ps.all.map fun p=>(states.getD p.target default).shifted
 let reads:=ps.all.map fun p=>
  (states.getD p.target default).moves.filterMap fun
   | (.phrase n,_)=>if empty.getD n false then ps.numbers[(p.target,n)]? else none
   | _=>none
 let read:=spread reads direct
 -- A passage over a phrase is followed by what follows the phrases that end with it.
 let (includes,back):=(List.range ps.all.size).foldl (fun (includes,back) i=>
  let p:=ps.all.getD i default
  (g.productionsOf p.phrase).foldl (fun (includes,back) production=>
   let parts:=(g.productions.getD production default).parts
   let (inner,last):=traverse states ps.numbers empty p.state parts
   let includes:=inner.foldl (fun includes j=>record includes j i) includes
   match last with
   | some q=>(includes,(q,production,i)::back)
   | none=>(includes,back)) (includes,back)) (none_,([]:List (Nat×Nat×Nat)))
 let follow:=spread includes read
 let sets:Std.HashMap (Nat×Nat) Nat:=back.foldl (fun sets (q,production,i)=>
  sets.insert (q,production) (sets.getD (q,production) 0 ||| follow.getD i 0)) ∅
 (Array.range states.size).map fun n=>
  (states.getD n default).reductions.map fun production=>(production,sets.getD (n,production) 0)
inductive Action where
 | shift (state:Nat)
 | reduce (production:Nat)
 deriving DecidableEq
structure Row where
 actions:Array (Option Action)
 fallback:Option Nat
 silent:Bool
 gotos:Array (Option Nat)
 expected:List Nat
deriving Inhabited
inductive Preference where
 | shift | reduce | undecided
deriving DecidableEq
def preference (production token:Option Level):Preference:=
 match production,token with
 | some p,some t=>
  if t.rank<p.rank then .reduce
  else if p.rank<t.rank then .shift
  else match t.grouping with
   | .left=>.reduce
   | .right=>.shift
 | _,_=>.undecided
def tokensOf (count set:Nat):List Nat:=
 (List.range count).filter (set.testBit ·)
def commonest (reductions:List Nat)(actions:Array (Option Action)):Option Nat:=
 (reductions.foldl (fun (best:Nat×Option Nat) r=>
  let n:=actions.foldl (fun n a=>if a==some (.reduce r) then n+1 else n) 0
  if best.1<n then (n,some r) else best) (0,none)).2
def makeRow (g:Grammar)(state:State)(lookaheads:List (Nat×Nat)):Row:=
 let shifts:=state.moves.filterMap fun
  | (.token t,q)=>some (t,q)
  | _=>none
 let levelOf (r:Nat):=(g.productions.getD r default).level
 -- Operators decide between shifting and reducing before the row is filled.
 let kept:=lookaheads.map fun (r,set)=>
  (r,shifts.foldl (fun set (t,_)=>
   if set.testBit t&&preference (levelOf r) (g.levelOf t)==.shift then set ^^^ (1 <<< t)
   else set) set)
 let shifts:=shifts.filter fun (t,_)=>
  !(lookaheads.any fun (r,set)=>
   set.testBit t&&preference (levelOf r) (g.levelOf t)==.reduce)
 let blank:Array (Option Action):=Array.replicate g.tokenCount none
 let reduced:=kept.reverse.foldl (fun row (r,set)=>
  (tokensOf g.tokenCount set).foldl (fun row t=>row.setIfInBounds t (some (.reduce r))) row) blank
 let row:=shifts.foldl (fun row (t,q)=>row.setIfInBounds t (some (.shift q))) reduced
 let recovers:=shifts.any (·.1==errorToken)
 let consistent:=state.reductions.length==1&&!(state.moves.any fun (s,_)=>
  match s with
  | .token _=>true
  | .phrase _=>false)
 let fallback:=
  if recovers then none
  else if consistent then state.reductions.head?
  else commonest state.reductions row
 let actions:=
  if consistent&&!recovers then blank
  else match fallback with
   | some r=>row.map fun a=>if a==some (.reduce r) then none else a
   | none=>row
 { actions:=actions
   fallback:=fallback
   silent:=actions.all (·.isNone)
   gotos:=state.moves.foldl (fun gotos (s,q)=>
    match s with
    | .phrase n=>gotos.setIfInBounds n (some q)
    | .token _=>gotos) (Array.replicate g.phraseCount none)
   expected:=(List.range g.tokenCount).filter fun t=>
    t != errorToken&&(actions.getD t none).isSome }
structure Table where
 rows:Array Row
 shapes:Array (Nat×Nat)
 final:Nat
deriving Inhabited
def table (g:Grammar):Table:=
 let states:=g.states
 let ahead:=g.lookaheads states
 { rows:=(Array.range states.size).map fun n=>
    makeRow g (states.getD n default) (ahead.getD n [])
   shapes:=g.productions.map fun p=>(p.result,p.parts.length)
   final:=((g.productions[0]?).bind fun p=>follow? states 0 p.parts).getD 0 }
namespace Table
def row (t:Table)(state:Nat):Row:=
 t.rows.getD state default
def action? (t:Table)(state token:Nat):Option Action:=
 (t.row state).actions.getD token none
def recovery? (t:Table)(state:Nat):Option Nat:=
 match t.action? state errorToken with
 | some (.shift q)=>some q
 | _=>none
def goto? (t:Table)(state phrase:Nat):Option Nat:=
 (t.row state).gotos.getD phrase none
end Table
end PatternScan.Grammar
