import Mathlib
import PatternScan.Grammar.Parser
/-! A step of the parser looks at the next token, if it needs one, and then shifts it, reduces a
production, or recovers from an error. -/
open List
namespace PatternScan.Grammar
variable {S β:Type}{t:Table}{c:Client S β}{p q:Parse S β}
namespace Parse
/-- The parser knows its next token, or does not need to. -/
inductive Looks (c:Client S β)(p:Parse S β):Parse S β→Prop
 | idle:Looks c p p
 | next (ahead:p.ahead=none):
  Looks c p {p with ahead:=some (c.next p.client).1,client:=(c.next p.client).2}
def Chosen (t:Table)(p:Parse S β)(production:Nat):Prop:=
 (∃x,p.ahead=some x∧t.action? p.top x.1=some (.reduce production))∨(t.row p.top).fallback=some production

/-- A production is reduced with an answer; the values of its parts are taken off the stack. -/
structure Reduces (t:Table)(c:Client S β)(p:Parse S β)(production:Nat)(values:List β)
 (rest:List (Nat×β))(answer:Reduced β)(client:S):Prop where
 chosen:Chosen t p production
 taken:take (t.shapes.getD production (0,0)).2 p.stack []=(values,rest)
 answer:c.reduce production values rest p.client=(answer,client)
def topOf (stack:List (Nat×β)):Nat:=
 match stack with
 | []=>0
 | (state,_)::_=>state
inductive Move (t:Table)(c:Client S β)(p q:Parse S β):Prop
 | shift (state:Nat)(x:Nat×β)(ahead:p.ahead=some x)
  (action:t.action? p.top x.1=some (.shift state))
  (stack:q.stack=(state,x.2)::p.stack)(ahead':q.ahead=none)
  (client:q.client=p.client)(recovering:q.recovering=p.recovering-1)
 | reduce (production state:Nat)(values:List β)(rest:List (Nat×β))(b:β)
  (reduces:Reduces t c p production values rest (.value b) q.client)
  (goto:t.goto? (topOf rest) (t.shapes.getD production (0,0)).1=some state)
  (stack:q.stack=(state,b)::rest)(ahead':q.ahead=p.ahead)
  (recovering:q.recovering=p.recovering)
 | recover (state:Nat)(rest:List (Nat×β))(below:rest <:+ p.stack)
  (stack:q.stack=(state,c.blank)::rest)(ahead':q.ahead=p.ahead∨q.ahead=none)
  (client:(∃production values rest,Reduces t c p production values rest .failed q.client)∨
   (p.recovering=0∧∃text,q.client=c.report text p.client)∨
   (p.recovering≠0∧q.client=p.client))
inductive Ends (t:Table)(c:Client S β)(p:Parse S β):S→Prop
 | still:Ends t c p p.client
 | reduce {production:Nat}{values:List β}{rest:List (Nat×β)}{answer:Reduced β}
  {client:S}(reduces:Reduces t c p production values rest answer client):Ends t c p client
 | report {client:S}(h:Ends t c p client)(text:String):Ends t c p (c.report text client)
def Progress.Follows (t:Table)(c:Client S β)(p:Parse S β):Progress S β→Prop
 | .more q=>Move t c p q
 | .done s=>Ends t c p s
lemma enter_cases (t:Table)(c:Client S β)(p:Parse S β)(s:Nat)(v:β):
 (∃tx,enter t c p s v=.done (c.report tx p.client))∨enter t c p s v=.done p.client∨
  enter t c p s v=.more {p with stack:=(s,v)::p.stack,depth:=p.depth+1}:=by
 unfold enter
 grind
lemma unwind_suffix {stack s:List (Nat×β)}{depth d st:Nat}
 (h:unwind t stack depth=some (s,d,st)):s <:+ stack:=by
 induction stack generalizing depth with
 | nil=>
  obtain⟨_,_,h⟩:=Option.map_eq_some_iff.1 h
  cases h
  exact suffix_rfl
 | cons x _ _=>
  rw[unwind]at h
  grind
lemma take_snd_suffix (n:Nat)(stack:List (Nat×β))(v:List β):(take n stack v).2 <:+ stack:=by
 induction n generalizing stack v with
 | zero=>exact suffix_rfl
 | succ n ih=>
  cases stack with
  | nil=>exact suffix_rfl
  | cons x r=>exact (ih r _).trans (suffix_cons x r)
lemma Reduces.suffix {pr:Nat}{v:List β}{r:List (Nat×β)}
 {a:Reduced β}{cl:S}(h:Reduces t c p pr v r a cl):
 r <:+ p.stack:=by
 have:=take_snd_suffix (t.shapes.getD pr (0,0)).2 p.stack []
 rwa[h.taken]at this
lemma recover_cases (t:Table)(c:Client S β)(p:Parse S β):
 recover t c p=.done p.client∨(∃tx,recover t c p=.done (c.report tx p.client))∨
  ∃q s r,recover t c p=.more q∧r <:+ p.stack∧
   q.stack=(s,c.blank)::r∧q.ahead=p.ahead∧q.client=p.client:=by
 unfold recover
 split
 ·exact .inl rfl
 ·next stack depth s hu=>
  obtain⟨tx,h⟩|h|h:=enter_cases t c {p with stack:=stack,depth:=depth,recovering:=3} s c.blank
  ·exact .inr (.inl ⟨tx,h⟩)
  ·exact .inl h
  ·exact .inr (.inr ⟨_,s,stack,h,unwind_suffix hu,rfl,rfl,rfl⟩)
lemma reduce_follows {pr:Nat}(h:Chosen t p pr):
 Progress.Follows t c p (Parse.reduce t c p pr):=by
 unfold Parse.reduce
 rcases hs:t.shapes.getD pr (0,0) with⟨phrase,size⟩
 rcases ht:take size p.stack [] with⟨values,rest⟩
 rcases han:c.reduce pr values rest p.client with⟨answer,client⟩
 have hsi:(t.shapes.getD pr (0,0)).2=size:=by rw[hs]
 have hp:(t.shapes.getD pr (0,0)).1=phrase:=by rw[hs]
 have hr:Reduces t c p pr values rest answer client:=
  ⟨h,by rw[hsi];exact ht,han⟩
 simp only[ht,han]
 cases answer with
 | value b=>
  dsimp only
  split
  ·next s hg=>
   obtain⟨tx,he⟩|he|he:=enter_cases t c {p with stack:=rest,depth:=p.depth-size,client:=client} s b
   ·rw[he]
    exact .report (.reduce hr) tx
   ·rw[he]
    exact .reduce hr
   ·rw[he]
    refine Move.reduce pr s values rest b hr ?_ rfl rfl rfl
    rw[hp]
    exact hg
  ·exact .reduce hr
 | failed=>
  obtain he|⟨tx,he⟩|⟨q,s,stack,he,hb,hst,ha,hc⟩:=
   recover_cases t c {p with stack:=rest,depth:=p.depth-size,client:=client}
  ·rw[he]
   exact .reduce hr
  ·rw[he]
   exact .report (.reduce hr) tx
  ·rw[he]
   refine Move.recover s stack (hb.trans hr.suffix) hst (.inl ha) (.inl ?_)
   rw[hc]
   exact⟨pr,values,rest,hr⟩
 | stopped=>exact .reduce hr
lemma recover_follows {p':Parse S β}(hs:p'.stack=p.stack)(ha:p'.ahead=p.ahead∨p'.ahead=none)
 (hc:(p.recovering=0∧∃tx,p'.client=c.report tx p.client)∨
  (p.recovering≠0∧p'.client=p.client)):
 Progress.Follows t c p (recover t c p'):=by
 have hen:Ends t c p p'.client:=by
  obtain⟨-,tx,h⟩|⟨-,h⟩:=hc
  ·rw[h]
   exact .report .still tx
  ·rw[h]
   exact .still
 obtain he|⟨tx,he⟩|⟨q,s,r,he,hb,hs',ha',hc'⟩:=
  recover_cases t c p'
 ·rw[he]
  exact hen
 ·rw[he]
  exact hen.report tx
 ·rw[he]
  refine Move.recover s r (hs▸hb) hs' ?_ ?_
  ·rwa[ha']
  ·rw[hc']
   exact .inr hc
lemma refuse_follows (tk:Nat):Progress.Follows t c p (refuse t c p tk):=by
 unfold refuse
 by_cases hr:p.recovering=0
 ·simp only[hr]
  exact recover_follows rfl (.inl rfl) (.inl ⟨hr,_,rfl⟩)
 simp only[beq_iff_eq,hr,if_false]
 split
 ·split
  ·exact Ends.still
  ·exact recover_follows rfl (.inr rfl) (.inr ⟨hr,rfl⟩)
 ·exact recover_follows rfl (.inl rfl) (.inr ⟨hr,rfl⟩)
lemma default_follows (tk:Nat):Progress.Follows t c p (Parse.default t c p tk):=by
 unfold Parse.default
 split
 ·next pr h=>exact reduce_follows (.inr h)
 ·exact refuse_follows tk
lemma act_follows {x:Nat×β}(h:p.ahead=some x):Progress.Follows t c p (match t.action? p.top x.1 with
   | some (.shift s)=>
    enter t c {p with ahead:=none,recovering:=p.recovering-1} s x.2
   | some (.reduce pr)=>Parse.reduce t c p pr
   | none=>Parse.default t c p x.1):=by
 split
 ·next s ha=>
  obtain⟨tx,he⟩|he|he:=enter_cases t c {p with ahead:=none,recovering:=p.recovering-1} s x.2
  ·rw[he]
   exact .report .still tx
  ·rw[he]
   exact Ends.still
  ·rw[he]
   exact Move.shift s x h ha rfl rfl rfl rfl
 ·next pr ha=>exact reduce_follows (.inl ⟨x,h,ha⟩)
 ·exact default_follows _
lemma step_follows (t:Table)(c:Client S β)(p:Parse S β):
 ∃p',Looks c p p'∧Progress.Follows t c p' (step t c p):=by
 unfold step
 split
 ·exact⟨p,.idle,default_follows _⟩
 cases ha:p.ahead with
 | some x=>
  have hp:{p with ahead:=some x}=p:=by rw[←ha]
  refine⟨{p with ahead:=some x},hp ▸ .idle,?_⟩
  exact act_follows rfl
 | none=>
  refine⟨_,.next ha,?_⟩
  exact act_follows rfl
def after (t:Table)(c:Client S β):Nat→Parse S β→Option (Parse S β)
 | 0,p=>some p
 | n+1,p=>
  match step t c p with
  | .more q=>after t c n q
  | .done _=>none
end Parse
def Row.sparse (tokenCount phraseCount:Nat)(actions:List (Nat×Action))
 (fallback:Option Nat)(gotos:List (Nat×Nat)):Row:=
 { actions:=actions.foldl (fun row (token,a)=>row.setIfInBounds token (some a)) (Array.replicate tokenCount none)
   fallback:=fallback
   silent:=actions.isEmpty
   gotos:=gotos.foldl (fun row (phrase,state)=>row.setIfInBounds phrase (some state))
    (Array.replicate phraseCount none)
   expected:=[] }

/-! ## Properties of all values -/
structure Client.Makes (c:Client S β)(P:β→Prop):Prop where
 next:∀s,P (c.next s).1.2
 reduce:∀production values below s b s',(∀v∈values,P v)→c.reduce production values below s=(.value b,s')→P b
 blank:P c.blank
namespace Parse
structure Holds (P:β→Prop)(p:Parse S β):Prop where
 stack:∀x∈p.stack,P x.2
 ahead:∀x∈p.ahead,P x.2
variable {P:β→Prop}
lemma mem_of_mem_take {n:Nat}{s:List (Nat×β)}{vl:List β}{v:β}
 (h:v∈(take n s vl).1):v∈vl∨∃x∈s,x.2=v:=by
 induction n generalizing s vl with
 | zero=>exact .inl h
 | succ n ih=>
  cases s with
  | nil=>exact .inl h
  | cons y _=>
   obtain hv|⟨x,hx,rfl⟩:=ih h
   ·grind
   ·exact .inr ⟨x,.tail _ hx,rfl⟩
lemma Holds.looks (hc:c.Makes P)(hp:p.Holds P)(h:Looks c p q):q.Holds P:=by
 cases h with
 | idle=>exact hp
 | next=>
  refine⟨hp.stack,?_⟩
  rintro _ ⟨⟩
  exact hc.next _
lemma Holds.move (hc:c.Makes P)(hp:p.Holds P)(h:Move t c p q):q.Holds P:=by
 cases h with
 | shift _ x ahead _ s ahead'=>
  refine⟨?_,by rw[ahead'];exact nofun⟩
  rw[s]
  exact forall_mem_cons.2 ⟨hp.ahead x ahead,hp.stack⟩
 | reduce pr _ values r b reduces _ s ahead'=>
  have hva:∀v∈values,P v:=by
   intro v hv
   have hv':v∈(take (t.shapes.getD pr (0,0)).2 p.stack []).1:=by rwa[reduces.taken]
   obtain hv|⟨x,hx,rfl⟩:=mem_of_mem_take hv'
   ·cases hv
   ·exact hp.stack x hx
  have hr:r <:+ p.stack:=reduces.suffix
  refine⟨?_,by rw[ahead'];exact hp.ahead⟩
  rw[s]
  exact forall_mem_cons.2 ⟨hc.reduce _ _ _ _ _ _ hva reduces.answer,fun x hx=>hp.stack x (hr.subset hx)⟩
 | recover _ _ bl s ahead'=>
  refine⟨?_,?_⟩
  ·rw[s]
   exact forall_mem_cons.2 ⟨hc.blank,fun x hx=>hp.stack x (bl.subset hx)⟩
  ·obtain h|h:=ahead'
   ·rw[h]
    exact hp.ahead
   ·rw[h]
    exact nofun
lemma Holds.after (hc:c.Makes P){n:Nat}(hp:p.Holds P)(h:after t c n p=some q):q.Holds P:=by
 induction n generalizing p with
 | zero=>
  cases h
  exact hp
 | succ n ih=>
  rw[Parse.after]at h
  split at h
  ·next r hr=>
   obtain⟨p',hl,hm⟩:=step_follows t c p
   rw[hr]at hm
   exact ih ((hp.looks hc hl).move hc hm) h
  ·cases h
end Parse
end PatternScan.Grammar
