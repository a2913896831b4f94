import PatternScan.Proofs.Atom.Items
import PatternScan.Proofs.Automaton.Trie
import PatternScan.Proofs.Regex.Emission
import PatternScan.Rule.Action
open PatternScan.Rule.Action
open List
open PatternScan.Rule.Compiler PatternScan.Automaton.Trie PatternScan.Regex PatternScan.AtomList PatternScan.Limits
namespace PatternScan.Rule
variable {α β:Type}{c':Compiler}(code:ResultCode)(detail:String)(c:Compiler)
namespace Action
variable {P:Compiler→Prop}
lemma run_bind (a:Action α)(k:α→Action β)(c:Compiler):(a >>= k).run c=match a.run c with
  | (.ok v,c')=>(k v).run c'
  | (.error e,c')=>(.error e,c'):=by
 rw[ExceptT.run_bind]
 simp only[bind,StateT.bind]
 generalize a.run c=x
 rcases x with⟨_|_,c'⟩<;>rfl
lemma run_bind_ok {a:Action α}{k:α→Action β}{c:Compiler}{v:β}:
 (a >>= k).run c=(.ok v,c')↔∃u d,a.run c=(.ok u,d)∧(k u).run d=(.ok v,c'):=by
 rw[run_bind]
 grind
lemma run_fail:(fail code:Action α).run c=
 (.error (if code==.insufficientMemory then .stopped else .failed),c.reportCode code):=rfl
lemma run_failWith:(failWith code detail:Action α).run c=
  (.error (if code==.insufficientMemory then .stopped else .failed),(c.setDetail detail).reportCode code):=rfl
lemma run_refuse_ok {b:Bool}{code:ResultCode}{detail:String}{k:Unit→Action β}{c:Compiler}{v:β}
 (h:(if b then failWith code detail >>= k else k ()).run c=(.ok v,c')):
 b=false∧(k ()).run c=(.ok v,c'):=by
 cases b with
 | false=>exact⟨rfl,h⟩
 | true=>
  obtain⟨_,_,ha,-⟩:=run_bind_ok.1 h
  cases ha

/-- A property of the compiler that an action keeps, however it ends. -/
def Keeps (P:Compiler→Prop)(a:Action α):Prop:=∀c,P c→P (a.run c).2
lemma Keeps.pure (v:α):Keeps P (Pure.pure v:Action α):=fun _ h=>h
lemma Keeps.bind {a:Action α}{k:α→Action β}(ha:Keeps P a)(hk:∀v,Keeps P (k v)):Keeps P (a >>= k):=by
 intro c h
 have hc:=ha c h
 rw[run_bind]
 rcases hr:a.run c with⟨_|v,c'⟩
 ·rwa[hr]at hc
 ·rw[hr]at hc
  exact hk v c' hc
lemma Keeps.get_bind {k:Compiler→Action β}(hk:∀c,P c→Keeps P (k c)):Keeps P (get >>= k):=fun c h=>hk c h c h
end Action
/-- Two compilers that have compiled the same, by the same setting. -/
structure Compiler.Same (c c':Compiler):Prop where
 strings:c'.strings=c.strings
 regexCode:c'.regexCode=c.regexCode
 trie:c'.trie=c.trie
 setting:c'.setting=c.setting
lemma Compiler.Same.refl:c.Same c:=⟨rfl,rfl,rfl,rfl⟩
lemma Compiler.Same.trans {c c' c'':Compiler}(h:c.Same c')(h':c'.Same c''):c.Same c'':=
 ⟨h'.strings.trans h.strings,h'.regexCode.trans h.regexCode,h'.trie.trans h.trie,h'.setting.trans h.setting⟩
namespace Action
def Quiet (a:Action α):Prop:=∀k:Compiler,Keeps k.Same a
lemma quiet_fail:Quiet (fail code:Action α):=by
 intro k c h
 exact h.trans ⟨rfl,rfl,rfl,rfl⟩
lemma quiet_failWith:Quiet (failWith code detail:Action α):=by
 intro k c h
 have hde:c.Same (c.setDetail detail):=⟨rfl,rfl,rfl,rfl⟩
 exact h.trans (hde.trans ⟨rfl,rfl,rfl,rfl⟩)
lemma quiet_warn (t:String):Quiet (warn t):=
 fun _ c h=>h.trans (show c.Same (c.warn t) from ⟨rfl,rfl,rfl,rfl⟩)
lemma Quiet.same {a:Action α}(h:Quiet a){c:Compiler}{r:Except Interruption α}
 (hr:a.run c=(r,c')):c.Same c':=by
 have:=h c c (.refl c)
 rwa[hr]at this
end Action
end PatternScan.Rule
namespace PatternScan
open Automaton (Trie)
variable {q:QualityRule}{i:Nat}
/-- The flags of a string that no use of it changes. -/
def StringFlags.settled (f:StringFlags):StringFlags:=
 {f with referenced:=false,singleMatch:=false,lastInRule:=false,fixedOffset:=false}
def RuleString.extent (s:RuleString):Nat:=
 if s.flags.wide then 2*s.text.size else s.text.size
structure RuleString.Noted (s s':RuleString):Prop where
 index:s'.index=s.index
 text:s'.text=s.text
 link:s'.link=s.link
 flags:s'.flags.settled=s.flags.settled
 fixed:s'.flags.fixedOffset=true→s.flags.fixedOffset=true
lemma RuleString.Noted.refl (s:RuleString):s.Noted s:=⟨rfl,rfl,rfl,rfl,id⟩
lemma RuleString.Noted.extent {s t:RuleString}(h:s.Noted t):t.extent=s.extent:=by
 have hs:t.flags.settled.wide=s.flags.settled.wide:=congrArg StringFlags.wide h.flags
 have hw:t.flags.wide=s.flags.wide:=hs
 rw[RuleString.extent,RuleString.extent,hw,h.text]
lemma RuleString.Noted.trans {s t u:RuleString}(h:s.Noted t)(h':t.Noted u):s.Noted u:=
 ⟨h'.index.trans h.index,h'.text.trans h.text,h'.link.trans h.link,h'.flags.trans h.flags,
  fun hf=>h.fixed (h'.fixed hf)⟩
namespace Rule
variable {n:Nat}{c0:Compiler}
/-- The strings of a compiler are in order, and its trie holds the atoms of the lists. -/
structure Compiler.Sound (c:Compiler)(lists:List (Nat×List AtomItem)):Prop where
 trie:c.trie=ofLists lists
 index:∀i<c.strings.size,(c.string i).index=i
 link:∀i<c.strings.size,∀l,(c.string i).link=some l→l.previous+1=i∧(c.string l.previous).flags.chainPart=true
 item:∀x∈registered lists,x.1<c.strings.size∧x.2.Fits (c.string x.1).extent

/-- One compiler comes after another one, which had `n` strings at least: what was compiled stays, and what is new
belongs to new strings. -/
structure Compiler.Grows (n:Nat)(c c':Compiler):Prop where
 base:n≤c.strings.size
 strings:c.strings.size≤c'.strings.size
 noted:∀i<n,(c.string i).Noted (c'.string i)
 first:n<c'.strings.size→(c'.string n).link=none
 code:c.regexCode.size≤c'.regexCode.size∧∀x<c.regexCode.size,c'.regexCode.fetch x=c.regexCode.fetch x
 lists:∀lists,c.Sound lists→∃more,c'.Sound (lists++more)∧∀y∈more,n≤y.1
namespace Compiler
lemma Sound.congr {c c':Compiler}{lists:List (Nat×List AtomItem)}(h:c.Sound lists)
 (hs:c'.strings=c.strings)(ht:c'.trie=c.trie):c'.Sound lists:=by
 have hst:∀i,c'.string i=c.string i:=fun i=>by rw[string,hs,string]
 refine⟨ht.trans h.trie,?_,?_,?_⟩
 ·intro i hi
  rw[hst]
  exact h.index i (hs▸hi)
 ·intro i hi l hl
  rw[hst]at hl⊢
  exact h.link i (hs▸hi) l hl
 ·intro x hx
  rw[hst,hs]
  exact h.item x hx
namespace Grows
variable {c c':Compiler}
lemma same (h:Grows n c0 c)(h':c.Same c'):Grows n c0 c':=by
 obtain⟨hs,hc,ht,-⟩:=h'
 have hst:∀i,c'.string i=c.string i:=fun i=>by rw[string,hs,string]
 refine⟨h.base,hs▸h.strings,?_,?_,hc▸h.code,?_⟩
 ·intro i hi
  rw[hst]
  exact h.noted i hi
 ·rw[hs,hst]
  exact h.first
 ·intro lists hl
  obtain⟨more,hm,hy⟩:=h.lists lists hl
  exact⟨more,hm.congr hs ht,hy⟩
end Grows
end Compiler
lemma Action.Quiet.grows {α:Type}{a:Action α}(h:Quiet a):
 Keeps (Grows n c0) a:=fun c hc=>hc.same (h c c (.refl c))
namespace Compiler
lemma string_modifyString (c:Compiler)(i j:Nat)(f:RuleString→RuleString):(c.modifyString i f).string j=
  if i=j∧j<c.strings.size then f (c.string j) else c.string j:=by
 have h:∀l:Array RuleString,l.getD j default=l[j]?.getD default:=fun l=>by rw[Array.getD_eq_getD_getElem?]
 rw[string,modifyString,string,h,h,Array.getElem?_modify]
 grind
lemma size_modifyString (c:Compiler)(i:Nat)(f:RuleString→RuleString):
 (c.modifyString i f).strings.size=c.strings.size:=Array.size_modify
lemma modifyRule_core (c:Compiler)(f:Rule→Rule):
 (c.modifyRule f).strings=c.strings∧(c.modifyRule f).regexCode=c.regexCode∧(c.modifyRule f).trie=c.trie:=by
 unfold modifyRule
 split<;>exact⟨rfl,rfl,rfl⟩
lemma Sound.modifyString {c:Compiler}{lists:List (Nat×List AtomItem)}(h:c.Sound lists)
 (i:Nat)(f:RuleString→RuleString)(hid:∀s,(f s).index=s.index)
 (he:∀s,(f s).extent=s.extent)
 (hli:∀l,(f (c.string i)).link=some l→i<c.strings.size→
  l.previous+1=i∧(c.string l.previous).flags.chainPart)
 (hch:∀s:RuleString,s.flags.chainPart→(f s).flags.chainPart):
 (c.modifyString i f).Sound lists:=by
 refine⟨h.trie,?_,?_,?_⟩
 ·intro j hj
  rw[size_modifyString]at hj
  rw[string_modifyString]
  split
  ·rw[hid,h.index j hj]
  ·exact h.index j hj
 ·intro j hj l hl
  rw[size_modifyString]at hj
  have hold:l.previous+1=j∧(c.string l.previous).flags.chainPart:=by
   rw[string_modifyString]at hl
   split at hl
   ·grind
   ·exact h.link j hj l hl
  refine⟨hold.1,?_⟩
  rw[string_modifyString]
  split
  ·exact hch _ hold.2
  ·exact hold.2
 intro x hx
 obtain⟨hlt,hf⟩:=h.item x hx
 rw[size_modifyString]
 refine⟨hlt,?_⟩
 rw[string_modifyString]
 split
 ·rw[he]
  exact hf
 ·exact hf
lemma Grows.note {c:Compiler}(h:Grows n c0 c)(i:Nat)
 (f:RuleString→RuleString)(hf:∀s:RuleString,s.Noted (f s)):
 Grows n c0 (c.modifyString i f):=by
 have hn:∀j,(c.string j).Noted ((c.modifyString i f).string j):=by
  intro j
  rw[string_modifyString]
  split
  ·exact hf _
  ·exact .refl _
 have hch:∀s:RuleString,(f s).flags.settled.chainPart=s.flags.settled.chainPart:=
  fun s=>congrArg StringFlags.chainPart (hf s).flags
 refine⟨h.base,?_,fun j hj=>(h.noted j hj).trans (hn j),?_,h.code,?_⟩
 ·rw[size_modifyString]
  exact h.strings
 ·rw[size_modifyString,(hn n).link]
  exact h.first
 intro lists hl
 obtain⟨more,hm,hy⟩:=h.lists lists hl
 refine⟨more,hm.modifyString i f (fun s=>(hf s).index) (fun s=>(hf s).extent) ?_ ?_,hy⟩
 ·intro l hl hi
  rw[(hf _).link]at hl
  exact hm.link i hi l hl
 ·intro s hs
  exact (hch s).trans hs
end Compiler
lemma patternParts_eq_ok {flags:StringFlags}{p:Pattern}
 {code:Code}{pr:PatternParts}(h:patternParts q flags p code=.ok pr):
 ∃code1 entries1 entries2,p.emit false code p.noEntries=.ok (code1,entries1)∧
  p.emit true code1 entries1=.ok (pr.code,entries2)∧
  pr.atoms.items=
   if (ofPattern q flags p.root entries2).items.isEmpty
   then [⟨[],0,⟨some code.size,none⟩⟩]
   else (ofPattern q flags p.root entries2).items:=by
 obtain⟨⟨code1,entries1⟩,h1,h⟩:=bind_eq_ok.1 h
 obtain⟨⟨code2,entries2⟩,h2,h⟩:=bind_eq_ok.1 h
 cases h
 exact⟨code1,entries1,entries2,h1,h2,rfl⟩
lemma prepared_fits {m:Modifier}{t:Option Bytes}
 {p:Option Pattern}{code cd:Code}{flags:StringFlags}{shown:Bytes}
 {atoms:AtomList}(h:prepared q m t p code=.ok (flags,shown,cd,atoms)):
 (code.size≤cd.size∧∀x<code.size,cd.fetch x=code.fetch x)∧
  ∀x∈atoms.items,x.Fits (if flags.wide then 2*shown.size else shown.size):=by
 unfold prepared at h
 split at h
 ·obtain⟨pr,hp,h⟩:=bind_eq_ok.1 h
  cases h
  obtain⟨code1,entries1,entries2,h1,h2,hit⟩:=patternParts_eq_ok hp
  obtain⟨-,hsi1,hfr1,-⟩:=Pattern.emit_stands h1
  obtain⟨-,hsi2,hfr2,-⟩:=Pattern.emit_stands h2
  refine⟨⟨by omega,fun x hx=>?_⟩,fun x hx=>?_⟩
  ·rw[hfr2 x (by omega),hfr1 x hx]
  rw[hit]at hx
  split at hx
  ·cases mem_singleton.1 hx
   exact⟨zero_le,fun _=>rfl,.inl rfl⟩
  ·obtain⟨hb,-,hsh,-⟩:=ofPattern_item hx
   exact⟨hsh,fun _=>hb,.inl hb⟩
 ·cases h
  exact⟨⟨le_rfl,fun _ _=>rfl⟩,fun x hx=>ofText_fits hx⟩
namespace Compiler
section
variable (c:Compiler)(name:String)(flags:StringFlags)(shown:Bytes)(code:Code)(atoms:AtomList)
lemma strings_plant:(c.plant name flags shown code atoms).strings=c.strings.push
 {name:=name,index:=c.strings.size,rule:=c.rule.getD 0,flags:=flags,text:=shown}:=
 (modifyRule_core _ _).1
lemma regexCode_plant:(c.plant name flags shown code atoms).regexCode=code:=
 (modifyRule_core _ _).2.1
lemma trie_plant:(c.plant name flags shown code atoms).trie=c.trie.add c.strings.size atoms.items:=
 (modifyRule_core _ _).2.2
lemma string_plant_of_lt (h:i<c.strings.size):
 (c.plant name flags shown code atoms).string i=c.string i:=by
 rw[string,strings_plant,string,Array.getD_eq_getD_getElem?,Array.getD_eq_getD_getElem?,
  Array.getElem?_push,if_neg (by omega)]
lemma string_plant_size:(c.plant name flags shown code atoms).string c.strings.size=
 {name:=name,index:=c.strings.size,rule:=c.rule.getD 0,flags:=flags,text:=shown}:=by
 rw[string,strings_plant,Array.getD_eq_getD_getElem?,Array.getElem?_push,if_pos rfl]
 rfl
end
lemma Sound.plant {c:Compiler}{ls:List (Nat×List AtomItem)}(h:c.Sound ls)
 (name:String)(flags:StringFlags)(shown:Bytes)(code:Code)(atoms:AtomList)
 (hf:∀x∈atoms.items,x.Fits (if flags.wide then 2*shown.size else shown.size)):
 (c.plant name flags shown code atoms).Sound (ls++[(c.strings.size,atoms.items)]):=by
 have hs:(c.plant name flags shown code atoms).strings.size=c.strings.size+1:=by rw[strings_plant,Array.size_push]
 refine⟨?_,?_,?_,?_⟩
 ·rw[trie_plant,h.trie,ofLists,ofLists,foldl_append]
  rfl
 ·intro i hi
  rcases Nat.lt_succ_iff_lt_or_eq.1 (hs▸hi) with hi|rfl
  ·rw[string_plant_of_lt _ _ _ _ _ _ hi]
   exact h.index i hi
  ·rw[string_plant_size]
 ·intro i hi l hl
  rcases Nat.lt_succ_iff_lt_or_eq.1 (hs▸hi) with hi|rfl
  ·rw[string_plant_of_lt _ _ _ _ _ _ hi]at hl
   have hli:=h.link i hi l hl
   rw[string_plant_of_lt _ _ _ _ _ _ (by omega)]
   exact hli
  ·rw[string_plant_size]at hl
   cases hl
 intro x hx
 rw[registered,flatMap_append,mem_append]at hx
 rcases hx with hx|hx
 ·obtain⟨hlt,hx⟩:=h.item x hx
  rw[string_plant_of_lt _ _ _ _ _ _ hlt]
  exact⟨by omega,hx⟩
 ·simp only[flatMap_cons,flatMap_nil,append_nil,mem_map]at hx
  obtain⟨y,hy,rfl⟩:=hx
  rw[string_plant_size]
  exact⟨by omega,hf y hy⟩
lemma Grows.plant {n:Nat}{c0 c:Compiler}(h:Grows n c0 c)(name:String)
 {q:QualityRule}{m:Modifier}{t:Option Bytes}{p:Option Pattern}
 {flags:StringFlags}{shown:Bytes}{code:Code}{atoms:AtomList}
 (hp:prepared q m t p c.regexCode=.ok (flags,shown,code,atoms)):
 Grows n c0 (c.plant name flags shown code atoms):=by
 obtain⟨⟨hs,hf⟩,hfi⟩:=prepared_fits hp
 have hn:n≤c.strings.size:=h.base.trans h.strings
 refine⟨h.base,?_,?_,?_,?_,?_⟩
 ·rw[strings_plant,Array.size_push]
  exact h.strings.trans (Nat.le_succ _)
 ·intro i hi
  rw[string_plant_of_lt _ _ _ _ _ _ (by omega)]
  exact h.noted i hi
 ·intro _
  rcases hn.lt_or_eq with hlt|rfl
  ·rw[string_plant_of_lt _ _ _ _ _ _ hlt]
   exact h.first hlt
  ·rw[string_plant_size]
 ·rw[regexCode_plant]
  refine⟨h.code.1.trans hs,fun x hx=>?_⟩
  rw[hf x (hx.trans_le h.code.1),h.code.2 x hx]
 intro lists hl
 obtain⟨more,hm,hy⟩:=h.lists lists hl
 refine⟨more++[(c.strings.size,atoms.items)],?_,fun y hym=>?_⟩
 ·rw[←append_assoc]
  exact hm.plant name flags shown code atoms hfi
 grind
end Compiler
lemma addString_run (name:String)(m:Modifier)(t:Option Bytes)(p:Option Pattern)
 (c:Compiler):(addString name m t p).run c=
  match prepared c.setting.quality m t p c.regexCode with
  | .ok (flags,shown,code,atoms)=>(.ok atoms.quality,c.plant name flags shown code atoms)
  | .error code=>(fail code).run c:=by
 change (Action.ofExcept (prepared c.setting.quality m t p c.regexCode) >>= _).run c=_
 cases prepared c.setting.quality m t p c.regexCode with
 | error _=>rfl
 | ok x=>rfl
lemma addParts_run (name:String)(m:Modifier)(a:Nat)(p:Pattern)
 (gap:Option (Int×Int))(w:Int)(c:Compiler):
 (addParts name m (a+1) p gap w).run c=
  match prepared c.setting.quality m none (some p.split.1) c.regexCode with
  | .error code=>(fail code).run c
  | .ok (flags,shown,code,atoms)=>
   let c:=(c.plant name flags shown code atoms).join gap p.split.2.isNone
   match p.split.2 with
   | none=>(.ok (min w atoms.quality),c)
   | some (lo,hi,remainder)=>
    (addParts name m a remainder (some ((lo:Int),(hi:Int))) (min w atoms.quality)).run c:=by
 rw[addParts]
 rw[run_bind,addString_run]
 cases prepared c.setting.quality m none (some p.split.1) c.regexCode with
 | error _=>rfl
 | ok x=>
  cases gap with
  | none=>
   cases hs:p.split.2 with
   | none=>rfl
   | some r=>rfl
  | some g=>
   cases hs:p.split.2 with
   | none=>rfl
   | some r=>rfl
namespace Compiler
lemma modifyString_comm (c:Compiler){j:Nat}(h:i≠j)(f g:RuleString→RuleString):
 (c.modifyString i f).modifyString j g=(c.modifyString j g).modifyString i f:=by
 unfold modifyString
 congr 1
 refine Array.ext_getElem? fun k=>?_
 grind
lemma size_join (c:Compiler)(gap:Option (Int×Int))(last:Bool):(c.join gap last).strings.size=c.strings.size:=by
 cases gap with
 | none=>rfl
 | some g=>rw[join,size_modifyString,size_modifyString]
section
variable (c:Compiler)(lo hi:Int)(last:Bool)
lemma string_join_of_lt (h:i+2<c.strings.size):(c.join (some (lo,hi)) last).string i=c.string i:=by
 rw[join,string_modifyString,if_neg (by omega),string_modifyString,if_neg (by omega)]
lemma string_join_before (h:i+2=c.strings.size):(c.join (some (lo,hi)) last).string i=
 {c.string i with flags:={(c.string i).flags with chainPart:=true}}:=by
 have hid:c.strings.size-1-1=i:=by omega
 rw[join,string_modifyString,size_modifyString,if_pos ⟨hid,by omega⟩,string_modifyString,if_neg (by omega)]
lemma string_join_last (h:i+2=c.strings.size):(c.join (some (lo,hi)) last).string (i+1)={ c.string (i+1) with
    link:=some ⟨i,lo,hi⟩
    flags:={ (c.string (i+1)).flags with
     fixedOffset:=false
     chainPart:=(c.string (i+1)).flags.chainPart||last
     chainTail:=(c.string (i+1)).flags.chainTail||last } }:=by
 have hid:c.strings.size-1=i+1:=by omega
 rw[join,string_modifyString,if_neg (by omega),string_modifyString,if_pos ⟨hid,by omega⟩,hid]
 rfl
end
lemma Sound.join {c:Compiler}{lists:List (Nat×List AtomItem)}(h:c.Sound lists)
 {gap:Option (Int×Int)}(last:Bool)(hg:gap.isSome→2≤c.strings.size):
 (c.join gap last).Sound lists:=by
 cases gap with
 | none=>exact h
 | some g=>
  have hsi:=hg rfl
  rw[Compiler.join]
  rw[modifyString_comm c (by omega)]
  refine modifyString (h.modifyString _ _ ?_ ?_ ?_ ?_) _ _ ?_ ?_ ?_ ?_
  ·exact fun _=>rfl
  ·exact fun _=>rfl
  ·exact fun l hl hi=>h.link _ hi l hl
  ·exact fun _ _=>rfl
  ·exact fun _=>rfl
  ·exact fun _=>rfl
  ·rintro l ⟨⟩ _
   rw[string_modifyString,if_pos ⟨rfl,by dsimp only;omega⟩]
   dsimp only
   exact⟨by omega,rfl⟩
  ·intro s hs
   rw[hs,Bool.true_or]
lemma Grows.join {n:Nat}{c0 c:Compiler}(h:Grows n c0 c){gap:Option (Int×Int)}
 (last:Bool)(hg:gap.isSome→n+2≤c.strings.size):
 Grows n c0 (c.join gap last):=by
 cases gap with
 | none=>exact h
 | some g=>
  have hsi:=hg rfl
  obtain⟨lo,hi⟩:=g
  have hold:∀i<n,(c.join (some (lo,hi)) last).string i=c.string i:=
   fun i hi=>string_join_of_lt c _ _ last (by omega)
  have hf:((c.join (some (lo,hi)) last).string n).link=(c.string n).link:=by
   rcases hsi.lt_or_eq with hlt|heq
   ·rw[string_join_of_lt c _ _ last hlt]
   ·rw[string_join_before c _ _ last heq]
  refine⟨h.base,(size_join c _ last).symm▸h.strings,?_,?_,h.code,?_⟩
  ·intro i hi
   rw[hold i hi]
   exact h.noted i hi
  ·intro _
   rw[hf]
   exact h.first (by omega)
  ·intro lists hl
   obtain⟨more,hm,hy⟩:=h.lists lists hl
   exact⟨more,hm.join last fun hs=>by omega,hy⟩
end Compiler
lemma addString_grows (name:String)(m:Modifier)(t:Option Bytes)(p:Option Pattern):
 Keeps (Grows n c0) (addString name m t p):=by
 intro c h
 rw[addString_run]
 split
 ·rename_i hp
  exact h.plant name hp
 ·exact (quiet_fail _).grows c h
lemma addParts_grows (name:String)(m:Modifier)(a:Nat):
 ∀(p:Pattern)(gap:Option (Int×Int))(worst:Int)(c:Compiler),Grows n c0 c→(gap.isSome=true→n<c.strings.size)→
  Grows n c0 ((addParts name m a p gap worst).run c).2:=by
 induction a with
 | zero=>exact fun p gap worst c h _=>h
 | succ a ih=>
  intro p gap worst c h hg
  rw[addParts_run]
  split
  ·exact (quiet_fail _).grows c h
  rename_i flags shown code atoms hp
  have hsi:(c.plant name flags shown code atoms).strings.size=c.strings.size+1:=by
   rw[strings_plant,Array.size_push]
  have hn:=h.base.trans h.strings
  have hg':gap.isSome→_:=fun hs=>hg hs
  have hj:=(h.plant name hp).join p.split.2.isNone fun hs=>by
   have:=hg' hs
   omega
  split
  ·exact hj
  ·exact ih _ _ _ _ hj fun _=>by rw[size_join];omega
lemma readPattern_quiet (name:String)(m:Modifier)(t:Bytes):Quiet (readPattern name m t):=by
 intro k
 refine Keeps.get_bind fun c hc=>?_
 split
 ·split
  ·exact .pure _
  ·exact quiet_failWith _ _ k
 split
 ·split
  ·split
   ·exact (quiet_warn _ k).bind fun _=>.pure _
   ·exact .pure _
  ·exact quiet_failWith _ _ k
 ·split
  ·exact .pure _
  ·exact quiet_fail _ k
lemma Action.declareString_walk {K:∀{α:Type},Action α→Prop}(hp:∀{α:Type}(v:α),K (pure v))
 (hb:∀{α β:Type}{a:Action α}{k:α→Action β},K a→(∀v,K (k v))→K (a >>= k))
 (hg:K (MonadStateOf.get:Action Compiler))
 (hf:∀code detail,K (failWith code detail:Action Unit))
 (hw:∀t,K (warn t))
 (hn:∀name,K (modify fun c=>{c with stringNames:=name::c.stringNames}:Action _))
 (hr:∀name m t,K (readPattern name m t))
 (hs:∀name m t,K (addString name m (some t) none))
 (hpt:∀name m al p,K (addParts name m al p none atomQuality))
 (name:String)(m:Modifier)(t:Bytes):K (declareString name m t):=by
 refine hb hg fun c=>?_
 extract_lets patterned m' checked added conflict named nonempty
 have hc:∀q,K (checked q):=by
  refine fun q=>hb hg fun c=>?_
  split
  ·exact hw _
  ·exact hp _
 have ha:K (added ()):=by
  dsimp -zeta only[added]
  split
  ·refine hb (hr _ _ _) fun p=>?_
   extract_lets parts mixed
   have hm:K (parts ()):=hb (hpt _ _ _ _) hc
   grind
  ·exact hb (hs _ _ _) hc
 have hco:K (conflict ()):=by grind
 have hna:K (named ()):=by
  dsimp only[named]
  split
  ·exact hb (hn _) fun _=>hco
  ·exact hco
 grind
lemma declareString_ok {name:String}{m:Modifier}{t:Bytes}{c c':Compiler}
 (h:(declareString name m t).run c=(.ok (),c')):
 t.isEmpty=false∧modifierConflict? (m.declared name).flags=none∧
 if m.flags.hexadecimal||m.flags.regexp||(m.flags.base64||m.flags.base64Wide) then
  ∃p d1 d2 d3 q,c.Same d1∧(readPattern name (m.declared name) t).run d1=(.ok p,d2)∧
   ∃d,c.Same d∧(addParts name ((m.declared name).forPattern p) (t.size+1) p none
    atomQuality).run d=(.ok q,d3)∧d3.Same c'
 else ∃d d' q,c.Same d∧
  (addString name (m.declared name) (some t) none).run d=(.ok q,d')∧d'.Same c':=by
 obtain⟨_,_,⟨⟩,h⟩:=run_bind_ok.1 h
 extract_lets patterned m' checked added conflict named nonempty at h
 obtain⟨-,h⟩:=run_refuse_ok h
 obtain⟨he,h⟩:=run_refuse_ok h
 refine⟨he,?_⟩
 have hn:∃d,c.Same d∧(conflict ()).run d=(.ok (),c'):=by
  dsimp only[named]at h
  split at h
  ·obtain⟨_,d,hd,h⟩:=run_bind_ok.1 h
   cases hd
   exact⟨{c with stringNames:=name::c.stringNames},⟨rfl,rfl,rfl,rfl⟩,h⟩
  ·exact⟨c,.refl c,h⟩
 obtain⟨d1,hd1,h⟩:=hn
 have ha:modifierConflict? m'.flags=none∧(added ()).run d1=(.ok (),c'):=by
  dsimp only[conflict]at h
  split at h
  ·obtain⟨_,_,hd,-⟩:=run_bind_ok.1 h
   cases hd
  ·next hno=>exact⟨hno,h⟩
 obtain⟨hco,ha⟩:=ha
 refine⟨hco,?_⟩
 have hq:∀q,Quiet (checked q):=by
  refine fun q k=>Keeps.get_bind fun c hc=>?_
  split
  ·exact quiet_warn _ k
  ·exact .pure _
 dsimp -zeta only[added]at ha
 by_cases hk:patterned
 case neg=>
  rw[if_neg hk]at ha⊢
  obtain⟨q,d',had,h⟩:=run_bind_ok.1 ha
  exact⟨d1,d',q,hd1,had,(hq q).same h⟩
 rw[if_pos hk]at ha⊢
 obtain⟨p,d2,hr,h⟩:=run_bind_ok.1 ha
 extract_lets parts mixed at h
 obtain⟨-,h⟩:=run_refuse_ok h
 have hd2:=hd1.trans ((readPattern_quiet _ _ _).same hr)
 have hp:∃d,c.Same d∧(parts ()).run d=(.ok (),c'):=by
  dsimp only[mixed]at h
  split at h
  ·obtain⟨_,d,hd,h⟩:=run_bind_ok.1 h
   exact⟨d,hd2.trans ((quiet_warn _).same hd),h⟩
  ·exact⟨d2,hd2,h⟩
 obtain⟨d,hd,h⟩:=hp
 obtain⟨q,d3,had,h⟩:=run_bind_ok.1 h
 exact⟨p,d1,d2,d3,q,hd1,hr,d,hd,had,(hq q).same h⟩
end Rule
end PatternScan
