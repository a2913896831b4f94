import PatternScan.Proofs.Condition.Meaning
import PatternScan.Proofs.Rule.Walks
/-! A compiler finds the rules of a namespace by their names. -/
namespace PatternScan.Rule
open List Prod Action
open Relation (ReflTransGen)
variable {c:Compiler}{name:String}
/-! ## The names of rules -/

/-- Rules are found by their names, and only by them. -/
structure Naming.Sound (n:Naming):Prop where
 space:n.space<n.spaces.size
 distinct:∀{i j:Nat}{name:String},n.spaces[i]?=some name→n.spaces[j]?=some name→i=j
 known:∀p∈n.rules,p.2<n.spaces.size
 numbers:∀(space name:String)(i:Nat),n.numbers[(space,name)]?=some i↔
  ∃k,n.rules[i]?=some (name,k)∧n.spaces[k]?=some space
namespace Compiler
lemma spaces_space (h:c.naming.Sound):c.spaces[c.space]?=some c.spaceName:=by
 have hs:c.space<c.spaces.size:=h.space
 simp[spaceName,hs]
lemma naming_plant (c:Compiler)(nm:String)(f:StringFlags)(s:Bytes)(cd:Regex.Code)(a:AtomList):
 (c.plant nm f s cd a).naming=c.naming:=
 naming_modifyRule _ fun _=>⟨rfl,rfl⟩
lemma naming_join (c:Compiler)(gap:Option (Int×Int))(l:Bool):(c.join gap l).naming=c.naming:=by cases gap<;>rfl
end Compiler
lemma addString_naming (nm:String)(m:Modifier)(t:Option Bytes)(p:Option Regex.Pattern)(c:Compiler):
 ((addString nm m t p).run c).2.naming=c.naming:=by
 rw[addString_run]
 split
 ·exact c.naming_plant ..
 ·exact c.naming_reportCode _
lemma addParts_naming (nm:String)(m:Modifier)(a:Nat)(p:Regex.Pattern)
 (gap:Option (Int×Int))(w:Int)(c:Compiler):
 ((addParts nm m a p gap w).run c).2.naming=c.naming:=by
 induction a generalizing p gap w c with
 | zero=>rfl
 | succ _ ih=>
  rw[addParts_run]
  split
  ·exact c.naming_reportCode _
  have hj (flags:StringFlags)(shown:Bytes)(code:Regex.Code)(atoms:AtomList):
   ((c.plant nm flags shown code atoms).join gap p.split.2.isNone).naming=c.naming:=
   (Compiler.naming_join ..).trans (c.naming_plant ..)
  split
  ·exact hj ..
  ·exact (ih ..).trans (hj ..)
namespace Naming.Sound
variable {n:Naming}
lemma push (h:n.Sound){space:String}(hs:n.spaces[n.space]?=some space)
 (hn:n.numbers[(space,name)]?=none):
 Sound ⟨n.spaces,n.space,n.rules++[(name,n.space)],n.numbers.insert (space,name) n.rules.length⟩ where
 space:=h.space
 distinct:=h.distinct
 known p hp:=by
  rcases mem_append.1 hp with hp|hp
  ·exact h.known p hp
  ·rw[mem_singleton.1 hp]
   exact h.space
 numbers space' name' i:=by
  have hold:=h.numbers space' name' i
  have hk:compareLex (compareOn fst) (compareOn snd) (space,name) (space',name')=
   .eq↔space=space'∧name=name':=by
   simp[compareOn]
  rw[Std.TreeMap.getElem?_insert]
  by_cases hsa:space=space'∧name=name'
  · -- The new name: an older rule of this name would have been found before.
   grind
  ·grind
lemma open_space (h:n.Sound)(hn:∀i:Nat,n.spaces[i]?≠some name):
 Sound ⟨n.spaces.push name,n.spaces.size,n.rules,n.numbers⟩ where
 space:=by simp
 distinct {i j name'} hi hj:=by
  have hdi:=@h.distinct i j name'
  grind
 known p hp:=by
  have:=h.known p hp
  simp only[Array.size_push]
  omega
 numbers space' name' i:=by
  rw[h.numbers]
  refine exists_congr fun k=>and_congr_right fun hk=>?_
  have hlt:=h.known _ (mem_of_getElem? hk)
  rw[Array.getElem?_push_lt hlt,Array.getElem?_eq_getElem hlt]
end Naming.Sound
namespace Compiler
lemma enterSpace_sound (h:c.naming.Sound)(nm:String):(c.enterSpace nm).naming.Sound:=by
 unfold enterSpace
 split
 ·next i hi=>
  obtain⟨hlt,-⟩:=Array.findIdx?_eq_some_iff_getElem.1 hi
  exact⟨hlt,h.distinct,h.known,h.numbers⟩
 ·next hn=>
  refine h.open_space fun i hi=>?_
  have hm:nm∈c.spaces:=Array.mem_of_getElem? hi
  simpa using Array.findIdx?_eq_none_iff.1 hn nm hm
lemma started_sound (setting:Setting)(nm:String):
 (({setting:=setting}:Compiler).enterSpace nm).naming.Sound:=by
 have hn:(({setting:=setting}:Compiler).enterSpace nm).naming=⟨#[nm],0,[],∅⟩:=by simp[enterSpace,naming]
 rw[hn]
 refine⟨Nat.zero_lt_one,fun {i j _} hi hj=>?_,by simp,fun _ _ _=>by simp⟩
 grind
lemma Sound.tame:Tame fun c=>c.naming.Sound where
 same hc _ hn:=hn▸hc
 note hc _ _ _:=hc
 code hc _ _:=hc
 string name m text c hc:=by
  change Naming.Sound _
  rwa[addString_naming]
 parts name m allowance p c hc:=by
  change Naming.Sound _
  rwa[addParts_naming]
 rule hidden everywhere name:=by
  refine openRule_keeps (fun code detail c hc=>?_) fun c hc hne=>?_
  ·rw[run_failWith,naming_reportCode]
   exact hc
  ·have hp:=hc.push (spaces_space hc) hne
   simpa only[naming,Array.toList_push,map_append,map_cons,map_nil,length_map,Array.length_toList]using hp

/-- One step of a compilation, as far as the names of rules are concerned. -/
inductive NameStep (c:Compiler):Compiler→Prop
 | action (form:Form)(parts below:List Value):NameStep c ((perform form parts below).run c).2
 | enter (name:String):NameStep c (c.enterSpace name)
 | aside (c':Compiler)(naming:c'.naming=c.naming):NameStep c c'
def Named (c:Compiler):Prop:=
 ∃setting name,ReflTransGen NameStep (({setting:=setting}:Compiler).enterSpace name) c
lemma Named.sound (h:c.Named):c.naming.Sound:=by
 obtain⟨setting,name,h⟩:=h
 induction h with
 | refl=>exact started_sound setting name
 | tail _ hs ih=>
  cases hs with
  | action form p b=>exact perform_keeps Sound.tame form p b _ ih
  | enter name=>exact enterSpace_sound ih name
  | aside _ hn=>exact hn▸ih

/-! ## What a name with a star means -/
def Means (c:Compiler)(start:String)(i:Nat):Prop:=
 ∃r,c.rules[i]?=some r∧r.space=c.space∧startsWith r.name start=true
instance (c:Compiler)(start:String)(i:Nat):Decidable (c.Means start i):=
 decidable_of_iff (∃r∈c.rules[i]?,r.space=c.space∧startsWith r.name start=true) (by simp[Means])

/-- No rule of another namespace has the name of a rule of the current one, if it starts with a
text. -/
def Unshared (c:Compiler)(start:String):Prop:=
 ∀r∈c.rules,r.space≠c.space→startsWith r.name start=true→∀s∈c.rules,s.space=c.space→s.name≠r.name
lemma ruleNumber?_eq_some (h:c.naming.Sound){nm:String}{i:Nat}:
 c.ruleNumber? nm=some i↔∃r,c.rules[i]?=some r∧r.name=nm∧r.space=c.space:=by
 have hs:=spaces_space h
 refine (h.numbers c.spaceName nm i).trans ?_
 simp only[naming,getElem?_map,Array.getElem?_toList,Option.map_eq_some_iff,Prod.mk.injEq]
 constructor
 ·rintro⟨k,⟨r,hr,hn,rfl⟩,hk⟩
  exact⟨r,hr,hn,h.distinct hk hs⟩
 ·rintro⟨r,hr,hn,hk⟩
  exact⟨c.space,⟨r,hr,hn,hk⟩,hs⟩
lemma filterMap_take {α β:Type}(g:α→Option β)(l:List α)(n:Nat):
 (l.take n).filterMap g=(range n).filterMap fun i=>l[i]?.bind g:=by
 induction n with
 | zero=>rfl
 | succ n ih=>
  rw[take_add_one,filterMap_append,ih,range_succ,filterMap_append]
  grind

/-- The rules that are looked up are those that are meant: the current namespace does not know the names of rules of
others. -/
lemma rulesNamed_found {c':Compiler}(h:c.naming.Sound){start:String}
 (hsh:c.Unshared start){cr:Nat}(hc:c.rule=some cr)
 {found:Array Nat}(hru:(rulesNamed start).run c=(.ok found,c')):
 found.toList=(range (cr+1)).filter (c.Means start):=by
 obtain⟨_,d,hd,hru⟩:=run_bind_ok.1 hru
 cases hd
 obtain⟨_,d,hd,hru⟩:=run_bind_ok.1 hru
 cases hd
 obtain⟨-,hru⟩:=run_refuse_ok hru
 obtain rfl:_=found:=Except.ok.inj (congrArg fst hru)
 change (c.rules.toList.take (c.rule.getD 0+1)).filterMap (fun r=>
  if startsWith r.name start then c.ruleNumber? r.name else none)=_
 rw[hc,filterMap_take,←filterMap_eq_filter]
 refine congrArg (filterMap · _) (funext fun i=>?_)
 rw[Array.getElem?_toList]
 cases hr:c.rules[i]? with
 | none=>simp[Option.guard,Means,hr]
 | some r=>
  have hm:c.Means start i↔r.space=c.space∧startsWith r.name start:=by simp[Means,hr]
  by_cases hst:startsWith r.name start
  ·by_cases hsp:r.space=c.space
   ·simpa[hst,Option.guard,hm,hsp]using (ruleNumber?_eq_some h).2 ⟨r,hr,rfl,hsp⟩
   ·have hn:c.ruleNumber? r.name=none:=by
     refine Option.eq_none_iff_forall_ne_some.2 fun j hj=>?_
     obtain⟨s,hs,hna,hs'⟩:=(ruleNumber?_eq_some h).1 hj
     exact hsh r (Array.mem_of_getElem? hr) hsp hst s (Array.mem_of_getElem? hs) hs' hna
    simp[Option.guard,hm,hsp,hn]
  ·simp[hst,Option.guard,hm]
end Compiler
section
open Condition
variable {σ:Type}{e:Environment σ}
/-- A quantity of the rules that a name with a star means counts every earlier rule of the namespace whose name starts
so and that matches, once, and no other rule. -/
theorem wildcard_counts_rules {c c':Compiler} (hc:c.Named) {start:String}
 (hshared:c.Unshared start) {current:Nat} (hcurrent:c.rule = some current)
 {found:Array Nat} (hrun:(rulesNamed start).run c = (.ok found,c')) (hr:e.Regular)
 (henabled:∀ i∈found.toList,(e.set.rule i).disabled = false) {s:State σ}
 (hopen:s.matched.getD current false = false) (n:Int64) {ip:Nat} {stack:Array Cell}
 {f:Frame σ} {frame:Nat}
 (hcode:Segment e.set.code ip ((Expression.someRules (.integer n) found.toList).code frame))
 (hroom:stack.size+(found.size+2) ≤ e.capacity) (hfuel:found.size+3 ≤ f.fuel) :
 found.toList = (List.range (current+1)).filter (c.Means start) ∧
 ∃ left,run e f.fuel (s.place ip stack f) =
  run e left (s.place (ip+((Expression.someRules (.integer n) found.toList).code frame).length)
   (stack.push (.ofBool (isEnough (reserve n) ((List.range current).filter fun i=>
    c.Means start i && s.matched.getD i false).length found.size))) f) := by
 have hfnd:=Compiler.rulesNamed_found hc.sound hshared hcurrent hrun
 refine⟨hfnd,?_⟩
 have hfits:(Expression.someRules (.integer n) found.toList).Every (Expression.Fits e.set):=by
  refine .intro henabled fun x hx=>?_
  rw[mem_singleton.1 hx]
  exact .leaf trivial rfl
 have hqty:Condition.Yields (Expression.eval e s.matched (.integer n) frame stack.size) 1
  fun c=>∃v,c=.integer v∧reserve n=reserve v :=
  (Expression.Numeric.integer n).yields frame (show stack.size+1≤e.capacity by omega)
 have hyields:=Expression.someRules_yields henabled hqty
  (by rw[Array.length_toList];exact hroom)
 rw[Array.length_toList]at hyields
 have hagrees:=Expression.compiles (s:=s) hr _ hfits frame ip stack hcode f
 obtain⟨-,hless⟩|⟨v,left,hv,-,rfl⟩:=hyields f
 ·omega
 ·rw[hv]at hagrees
  refine⟨left,?_⟩
  have hcnt:(found.toList.filter fun i=>s.matched.getD i false)=
   (List.range current).filter fun i=>c.Means start i&&s.matched.getD i false:=by
   rw[Array.getD_eq_getD_getElem?]at hopen
   rw[hfnd,filter_filter,range_succ,filter_append]
   simp[hopen,Bool.and_comm]
  rw[←hcnt]
  exact hagrees.1
lemma Compiler.Named.declaring {c:Compiler}(h:c.Named)(nm:String):(c.declaring nm).Named:=by
 obtain⟨setting,f,h⟩:=h
 exact⟨setting,f,h.tail (.action ..)⟩
lemma Compiler.Named.entering {c:Compiler}(h:c.Named)(space:String):(c.enterSpace space).Named:=by
 obtain⟨setting,f,h⟩:=h
 exact⟨setting,f,h.tail (.enter _)⟩
def twoNames:Compiler:=
 (((((({}:Compiler).enterSpace "y").declaring "a3").enterSpace "x").declaring "a1").declaring "a2").declaring "b"
theorem wildcard_counts_rules_two :
 let x:Expression:=.someRules (.integer 2) [1,2]
 let s:State Unit:={ matched := #[true,true,true,false],unsatisfied := #[false],world := () }
 let f:Frame Unit:=⟨20,Array.replicate slotCount (.integer 0),()⟩
 ∃ left,run (Environment.sole x oneFound) 20 (s.place 1 #[] f) =
  run (Environment.sole x oneFound) left (s.place (1+(x.code 0).length) #[.ofBool true] f):=by
 intro x s f
 have hnamed:twoNames.Named:=.declaring (.declaring (.declaring (.entering (.declaring ⟨_,_,.refl⟩ _) _) _) _) _
 have hshared:∀ r∈twoNames.rules,r.space≠twoNames.space→startsWith r.name "a"=true→
  ∀ q∈twoNames.rules,q.space=twoNames.space→q.name≠r.name:=by decide +kernel
 have hok:((rulesNamed "a").run twoNames).1.toOption=some #[1,2]:=by decide +kernel
 have hrun:(rulesNamed "a").run twoNames=(.ok #[1,2],((rulesNamed "a").run twoNames).2):=by
  rcases hr:(rulesNamed "a").run twoNames with⟨_|found,c⟩<;>rw[hr]at hok<;>cases hok
  rfl
 have henabled:∀ i∈[1,2],((Environment.sole x oneFound).set.rule i).disabled=false:=by
  decide
 have hfits:x.Every (Expression.Fits (Environment.sole x oneFound).set) :=
  .intro henabled fun y hy=>mem_singleton.1 hy ▸ .leaf trivial rfl
 obtain⟨-,left,hleft⟩:=wildcard_counts_rules (s:=s) (f:=f) hnamed hshared
  (show twoNames.rule=some 3 by decide +kernel) hrun
  (Environment.sole_regular x oneFound) henabled rfl 2 (Environment.sole_holds hfits).2
  (show (#[]:Array Cell).size+(2+2)≤16 by decide) (show 2+3≤20 by decide)
 refine⟨left,hleft.trans ?_⟩
 have hcnt:isEnough (reserve 2) ((List.range 3).filter fun i=>
  twoNames.Means "a" i&&s.matched.getD i false).length 2=true:=by decide +kernel
 exact congrArg (fun b=>run _ left (s.place _ #[.ofBool b] f)) hcnt
def sharedName:Compiler:=
 (((({}:Compiler).enterSpace "x").declaring "a1").enterSpace "y" |>.declaring "a1").declaring "b"

/-- The rule whose name is shared is counted twice. -/
theorem wildcard_counts_twice :
 ((rulesNamed "a").run sharedName).1.toOption = some #[1,1] ∧
 (List.range 2).filter (sharedName.Means "a") = [1] ∧
 let sections:Array Section :=
  #[.rule 0 (.integer 1),.rule 1 (.integer 1),.rule 2 (.someRules (.integer 2) [1,1])]
 (evaluate { Environment.sole (.integer 1) oneFound with
  set:={ sharedName.ruleSet with code := program sections }
  findings:={ oneFound with required := #[true,true,true] } } ()).2.matched=
   #[true,true,true]:=by
 refine⟨by decide +kernel,by decide +kernel,by decide +kernel⟩
end
end PatternScan.Rule