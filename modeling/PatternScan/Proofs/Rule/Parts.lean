import PatternScan.Proofs.Rule.Walks
/-! A pattern is declared as a chain of strings, one for each of its parts. -/
open Array
open PatternScan.Automaton.Trie PatternScan.Rule.Action
namespace PatternScan.Rule
variable {c:Compiler}
/-! A compilation is a row of steps. Whatever has been compiled at one point is still there at any later
one. -/
open Relation (ReflTransGen)
namespace Compiler
variable {n:Nat}{c0:Compiler}
lemma Grows.refl (c:Compiler):Grows c.strings.size c c:=
 ⟨le_rfl,le_rfl,fun _ _=>.refl _,fun h=>absurd h (lt_irrefl _),⟨le_rfl,fun _ _=>rfl⟩,
  fun lists h=>⟨[],by rwa[List.append_nil],nofun⟩⟩
lemma Grows.setCode (h:Grows n c0 c){code:Regex.Code}(hs:c.regexCode.size≤code.size)
 (hf:∀x<c.regexCode.size,code.fetch x=c.regexCode.fetch x):
 Grows n c0 {c with regexCode:=code}:=by
 refine⟨h.base,h.strings,h.noted,h.first,⟨h.code.1.trans hs,fun x hx=>?_⟩,?_⟩
 ·rw[hf x (hx.trans_le h.code.1),h.code.2 x hx]
 ·intro lists hl
  obtain⟨more,hm,hy⟩:=h.lists lists hl
  exact⟨more,hm.congr rfl rfl,hy⟩
lemma Grows.tame:Tame (Grows n c0) where
 same hc hs _:=hc.same hs
 note hc:=hc.note
 code hc:=hc.setCode
 string name m _:=addString_grows name m _ _
 parts name m allowance p:=fun c hc=>addParts_grows name m allowance p _ _ c hc nofun
 rule _ _ _:=openRule_keeps (fun _ _=>(quiet_failWith _ _).grows)
  fun _ hc _=>hc.same ⟨rfl,rfl,rfl,rfl⟩
end Compiler
namespace Compiler
/-- One step of a compilation: an action of the parser, or a change that strings, code and atoms have no part in. -/
inductive Step (c:Compiler):Compiler→Prop
 | action (form:Form)(parts below:List Value):Step c ((perform form parts below).run c).2
 | aside (c':Compiler)(strings:c'.strings=c.strings)(code:c'.regexCode=c.regexCode)
  (trie:c'.trie=c.trie):Step c c'
def Reaches:Compiler → Compiler→Prop:=ReflTransGen Step
def Started (c:Compiler):Prop:=∃setting:Setting,Reaches {setting:=setting} c
lemma Grows.step {n:Nat}{c0 c c':Compiler}(h:Grows n c0 c)(hs:Step c c'):Grows n c0 c':=by
 cases hs with
 | action form pr b=>exact perform_keeps tame form pr b c h
 | aside _ hst hc ht=>
  have hsa:c.Same {c' with setting:=c.setting}:=⟨hst,hc,ht,rfl⟩
  have:=h.same hsa
  exact⟨this.base,this.strings,this.noted,this.first,this.code,fun lists hl=>
   let ⟨more,hm,hy⟩:=this.lists lists hl
   ⟨more,hm.congr rfl rfl,hy⟩⟩
lemma Reaches.grows {c':Compiler}(h:Reaches c c'):Grows c.strings.size c c':=by
 induction h with
 | refl=>exact .refl c
 | tail _ hs ih=>exact ih.step hs
lemma Started.sound (h:Started c):∃lists,c.Sound lists:=by
 obtain⟨setting,h⟩:=h
 obtain⟨more,hm,-⟩:=h.grows.lists [] ⟨rfl,nofun,nofun,nofun⟩
 exact⟨_,hm⟩
end Compiler
end PatternScan.Rule
namespace PatternScan
open Automaton (Trie)
open Regex (Pattern)
variable {lists:List (Nat×List AtomItem)}{gap:Option (Int×Int)}{text:Option Bytes}{p:Option Pattern}{quality:QualityRule}
/-- The flags of a string that neither its uses nor its place in a chain change. -/
def StringFlags.core (f:StringFlags):StringFlags:=
 {f.settled with chainPart:=false,chainTail:=false}
structure RuleString.Held (s s':RuleString):Prop where
 flags:s'.flags.core=s.flags.core
 fixed:s'.flags.fixedOffset=true→s.flags.fixedOffset=true
 tail:s'.flags.chainTail=s.flags.chainTail
 text:s'.text=s.text
 link:s'.link=s.link
lemma RuleString.Held.refl (s:RuleString):s.Held s:=⟨rfl,id,rfl,rfl,rfl⟩
lemma RuleString.Held.trans {s t u:RuleString}(h:s.Held t)(h':t.Held u):s.Held u:=
 ⟨h'.flags.trans h.flags,fun hf=>h.fixed (h'.fixed hf),h'.tail.trans h.tail,
  h'.text.trans h.text,h'.link.trans h.link⟩
lemma RuleString.Noted.held {s t:RuleString}(h:s.Noted t):s.Held t where
 flags:=by
  have hc:∀f:StringFlags,f.core={f.settled with chainPart:=false,chainTail:=false}:=fun _=>rfl
  rw[hc,hc,h.flags]
 fixed:=h.fixed
 tail:=by
  have ht:t.flags.settled.chainTail=s.flags.settled.chainTail:=by rw[h.flags]
  exact ht
 text:=h.text
 link:=h.link
structure Regex.Part where
 gap:Option (Int×Int)
 pattern:Pattern
 last:Bool
def Regex.Pattern.parts:Nat→Option (Int×Int)→Pattern→List Part
 | 0,_,_=>[]
 | allowance+1,gap,p=>
  ⟨gap,p.split.1,p.split.2.isNone⟩ ::
   match p.split.2 with
   | none=>[]
   | some (lo,hi,remainder)=>parts allowance (some ((lo:Int),(hi:Int))) remainder
namespace Rule.Compiler
/-- One compiler comes after another one, and the strings of the other one are as they were. -/
structure Extends (c:Compiler)(lists:List (Nat×List AtomItem))(c':Compiler)
 (lists':List (Nat×List AtomItem)):Prop where
 sound:c'.Sound lists'
 strings:c.strings.size≤c'.strings.size
 held:∀i<c.strings.size,(c.string i).Held (c'.string i)
 code:c.regexCode.size≤c'.regexCode.size∧∀x<c.regexCode.size,c'.regexCode.fetch x=c.regexCode.fetch x
 items:∀x:Nat×AtomItem,x.1<c.strings.size→(x∈registered lists'↔x∈registered lists)
variable {c c' c'':Compiler}{lists' lists'':List (Nat×List AtomItem)}
lemma Sound.extends_self (h:c.Sound lists):Extends c lists c lists:=
 ⟨h,le_rfl,fun _ _=>.refl _,⟨le_rfl,fun _ _=>rfl⟩,fun _ _=>Iff.rfl⟩
lemma Same.extends (h:c.Same c')(hc:c.Sound lists):Extends c lists c' lists:=by
 have hs:∀i,c'.string i=c.string i:=fun i=>by rw[string,h.strings,string]
 refine⟨hc.congr h.strings h.trie,by rw[h.strings],fun i _=>?_,by simp[h.regexCode],fun _ _=>Iff.rfl⟩
 rw[hs]
 exact .refl _
lemma Extends.trans (h:Extends c lists c' lists')(h':Extends c' lists' c'' lists''):
 Extends c lists c'' lists'' where
 sound:=h'.sound
 strings:=h.strings.trans h'.strings
 held i hi:=(h.held i hi).trans (h'.held i (hi.trans_le h.strings))
 code:=⟨h.code.1.trans h'.code.1,fun x hx=>by rw[h'.code.2 x (hx.trans_le h.code.1),h.code.2 x hx]⟩
 items x hx:=(h'.items x (hx.trans_le h.strings)).trans (h.items x hx)
lemma mem_registered_append {mr:List (Nat×List AtomItem)}{x:Nat×AtomItem}(h:∀y∈mr,y.1≠x.1):
 x∈registered (lists++mr)↔x∈registered lists:=by
 rw[registered,List.flatMap_append,List.mem_append]
 refine or_iff_left fun hx=>?_
 grind
lemma Grows.extends (h:Grows c.strings.size c c')(hc:c.Sound lists):∃lists',Extends c lists c' lists':=by
 obtain⟨more,hm,hy⟩:=h.lists lists hc
 refine⟨lists++more,hm,h.strings,fun i hi=>(h.noted i hi).held,h.code,fun x hx=>?_⟩
 exact mem_registered_append fun y hym=>by have:=hy y hym;omega
section
variable (name:String)(flags:StringFlags)(shown:Bytes)(code:Regex.Code)(atoms:AtomList)
 (last:Bool)(hgap:gap.isSome=true→0<c.strings.size)
include hgap
lemma string_part:((c.plant name flags shown code atoms).join gap last).string c.strings.size=
 { name:=name,index:=c.strings.size,rule:=c.rule.getD 0,text:=shown
   link:=gap.map fun g=>⟨c.strings.size-1,g.1,g.2⟩
   flags:=if gap.isSome then { flags with
    fixedOffset:=false
    chainPart:=flags.chainPart||last
    chainTail:=flags.chainTail||last } else flags }:=by
 cases gap with
 | none=>exact string_plant_size ..
 | some g=>
  have hpo:=hgap rfl
  obtain⟨n,hn⟩:=Nat.exists_eq_add_of_lt hpo
  rw[zero_add]at hn
  have hs:n+2=(c.plant name flags shown code atoms).strings.size:=by rw[strings_plant,size_push,hn]
  have hl:=string_join_last (c.plant name flags shown code atoms) g.1 g.2 last hs
  rw[←hn,string_plant_size]at hl
  rw[hl,hn]
  rfl
lemma Sound.part (h:c.Sound lists)(hc:c.regexCode.size≤code.size∧
 ∀x<c.regexCode.size,code.fetch x=c.regexCode.fetch x)
 (hf:∀x∈atoms.items,x.Fits (if flags.wide then 2*shown.size else shown.size)):
 Extends c lists ((c.plant name flags shown code atoms).join gap last)
  (lists++[(c.strings.size,atoms.items)]):=by
 have hsi:(c.plant name flags shown code atoms).strings.size=c.strings.size+1:=by rw[strings_plant,size_push]
 refine⟨?_,?_,?_,?_,fun x hx=>?_⟩
 ·refine (h.plant name flags shown code atoms hf).join last fun hs=>?_
  have:=hgap hs
  omega
 ·rw[size_join,hsi]
  exact Nat.le_succ _
 ·intro i hi
  have hold:=string_plant_of_lt c name flags shown code atoms hi
  cases gap with
  | none=>
   rw[Compiler.join,hold]
   exact .refl _
  | some g=>
   rcases Nat.lt_or_eq_of_le (Nat.succ_le_of_lt hi) with hlt|heq
   ·rw[string_join_of_lt _ _ _ _ (by omega),hold]
    exact .refl _
   ·rw[string_join_before _ _ _ _ (by omega),hold]
    exact⟨rfl,id,rfl,rfl,rfl⟩
 ·have hj:((c.plant name flags shown code atoms).join gap last).regexCode=code:=by
   cases gap<;>exact regexCode_plant c name flags shown code atoms
  rw[hj]
  exact hc
 ·refine mem_registered_append fun y hy=>?_
  cases List.mem_singleton.1 hy
  exact (ne_of_lt hx).symm
end
/-- A string is searched by what was prepared for a text or a pattern. -/
structure Carries (c:Compiler)(lists:List (Nat×List AtomItem))(j:Nat)(m:Modifier)
 (text:Option Bytes)(p:Option Pattern):Prop where
 lt:j<c.strings.size
 prepared:∃quality code flags shown code' atoms,prepared quality m text p code=.ok (flags,shown,code',atoms)∧
   (c.string j).flags.core=flags.core∧
   ((c.string j).flags.fixedOffset=true→flags.fixedOffset=true)∧
   (c.string j).text=shown∧
   (code'.size≤c.regexCode.size∧∀x<code'.size,c.regexCode.fetch x=code'.fetch x)∧
   ∀x,(j,x)∈registered lists↔x∈atoms.items
lemma Carries.extends {j:Nat}{m:Modifier}
 (h:Carries c lists j m text p)(h':Extends c lists c' lists'):
 Carries c' lists' j m text p:=by
 obtain⟨hlt,quality,code,flags,shown,code',atoms,hp,hfl,hfi,ht,hc,hi⟩:=h
 have hh:=h'.held j hlt
 refine⟨hlt.trans_le h'.strings,quality,code,flags,shown,code',atoms,hp,
  hh.flags.trans hfl,fun hf=>hfi (hh.fixed hf),hh.text.trans ht,?_,fun x=>?_⟩
 ·refine⟨hc.1.trans h'.code.1,fun x hx=>?_⟩
  rw[h'.code.2 x (hx.trans_le hc.1),hc.2 x hx]
 ·rw[←hi]
  exact h'.items (j,x) hlt

/-- A string carries a part, and is chained to the one before it by the gap. -/
structure Chains (c:Compiler)(lists:List (Nat×List AtomItem))(m:Modifier)(j:Nat)
 (x:Regex.Part):Prop where
 carries:Carries c lists j m none (some x.pattern)
 link:(c.string j).link=x.gap.map fun g=>⟨j-1,g.1,g.2⟩
 tail:(c.string j).flags.chainTail=(m.flags.chainTail||x.gap.isSome&&x.last)
lemma Chains.extends {m:Modifier}{j:Nat}{x:Regex.Part}(h:Chains c lists m j x)
 (h':Extends c lists c' lists'):Chains c' lists' m j x where
 carries:=h.carries.extends h'
 link:=(h'.held j h.carries.lt).link.trans h.link
 tail:=(h'.held j h.carries.lt).tail.trans h.tail
lemma prepared_flags {m:Modifier}
 {code cd:Regex.Code}{flags:StringFlags}{shown:Bytes}
 {atoms:AtomList}(h:prepared quality m text p code=.ok (flags,shown,cd,atoms))
 {α:Type}(g:StringFlags→α)(hg:∀(f:StringFlags) literal fits fixed,g { f with
  literal:=literal,fitsInAtom:=fits,fixedOffset:=fixed }=g f:=by intros;rfl):
 g flags=g m.flags:=by
 unfold prepared at h
 split at h
 ·obtain⟨_,-,⟨⟩⟩:=bind_eq_ok.1 h
  exact hg m.flags m.flags.literal m.flags.fitsInAtom false
 ·cases h
  exact hg m.flags true _ m.flags.fixedOffset
end Rule.Compiler
namespace Rule
open Compiler
section
variable (name:String){m:Modifier}
 {c:Compiler}
 (hgap:gap.isSome=true→0<c.strings.size){flags:StringFlags}{shown:Bytes}
 {code:Regex.Code}{atoms:AtomList}
 (hp:prepared quality m text p c.regexCode=.ok (flags,shown,code,atoms))(last:Bool)
include hgap hp
lemma carries_part (hc:c.Sound lists):Carries ((c.plant name flags shown code atoms).join gap last)
  (lists++[(c.strings.size,atoms.items)]) c.strings.size m text p:=by
 have hs:=string_part name flags shown code atoms last hgap
 have hsi:((c.plant name flags shown code atoms).join gap last).strings.size=
  c.strings.size+1:=by rw[size_join,strings_plant,size_push]
 have hco:((c.plant name flags shown code atoms).join gap last).regexCode=code:=by
  cases gap<;>exact regexCode_plant c name flags shown code atoms
 refine⟨by omega,_,_,flags,shown,code,atoms,hp,?_,?_,?_,?_,fun x=>?_⟩
 ·rw[hs]
  split<;>rfl
 ·rw[hs]
  split
  ·nofun
  ·exact id
 ·rw[hs]
 ·rw[hco]
  exact⟨le_rfl,fun _ _=>rfl⟩
 ·rw[registered,List.flatMap_append,←registered]
  have hn:(c.strings.size,x)∉registered lists:=fun hx=>lt_irrefl _ (hc.item _ hx).1
  simp[hn]
lemma link_part:(((c.plant name flags shown code atoms).join gap last).string c.strings.size).link=
 gap.map (fun g=>⟨c.strings.size-1,g.1,g.2⟩)∧
 (((c.plant name flags shown code atoms).join gap last).string c.strings.size).flags.chainTail=
  (m.flags.chainTail||gap.isSome&&last):=by
 rw[string_part name flags shown code atoms last hgap,←prepared_flags hp StringFlags.chainTail]
 cases gap<;>simp
end
lemma addParts_chains (name:String)(m:Modifier)(a:Nat):
 ∀(p:Pattern)(gap:Option (Int×Int))(worst quality:Int)(c c':Compiler)
  (lists:List (Nat×List AtomItem)),c.Sound lists→(gap.isSome→0<c.strings.size)→
  (addParts name m a p gap worst).run c=(.ok quality,c')→
  ∃lists',Extends c lists c' lists'∧c'.strings.size=c.strings.size+(p.parts a gap).length∧
   ∀k x,(p.parts a gap)[k]?=some x→Chains c' lists' m (c.strings.size+k) x:=by
 induction a with
 | zero=>
  rintro p gap worst quality c c' lists hc hgap ⟨⟩
  exact⟨lists,hc.extends_self,rfl,nofun⟩
 | succ _ ih=>
  intro p gap worst quality c c' lists hc hgap hr
  rw[addParts_run]at hr
  split at hr
  ·cases hr
  next flags shown code atoms hp=>
  obtain⟨hco,hfi⟩:=prepared_fits hp
  have hpa:=hc.part name flags shown code atoms p.split.2.isNone hgap hco hfi
  have hf:Chains ((c.plant name flags shown code atoms).join gap p.split.2.isNone)
   (lists++[(c.strings.size,atoms.items)]) m c.strings.size ⟨gap,p.split.1,p.split.2.isNone⟩:=
   ⟨carries_part name hgap hp _ hc,(link_part name hgap hp _).1,(link_part name hgap hp _).2⟩
  have hs:((c.plant name flags shown code atoms).join gap p.split.2.isNone).strings.size=
   c.strings.size+1:=by rw[size_join,strings_plant,size_push]
  generalize (c.plant name flags shown code atoms).join gap p.split.2.isNone=d at *
  rw[Pattern.parts]
  cases hre:p.split.2 with
  | none=>
   rw[hre]at hr hf
   cases hr
   refine⟨_,hpa,hs,fun k x hk=>?_⟩
   match k with
   | 0=>
    cases hk
    exact hf
  | some r=>
   rw[hre]at hr hf
   obtain⟨lists',he,hs',hch⟩:=ih _ _ _ _ _ _ _ hpa.sound (fun _=>by omega) hr
   refine⟨lists',hpa.trans he,?_,fun k x hk=>?_⟩
   ·rw[hs',hs,add_assoc,add_comm 1]
    rfl
   match k with
   | 0=>
    cases hk
    exact hf.extends he
   | k+1=>
    rw[add_comm k,←add_assoc,←hs]
    exact hch k x hk
lemma addParts_chainPart {name:String}{m:Modifier}{a:Nat}{p:Pattern}
 (hp:p.split.2=none){w quality:Int}{c c':Compiler}
 (h:(addParts name m (a+1) p none w).run c=(.ok quality,c')):
 (c'.string c.strings.size).flags.chainPart=m.flags.chainPart:=by
 rw[addParts_run,hp]at h
 split at h
 ·cases h
 next flags shown code atoms hpr=>
 cases h
 have hgap:(none:Option (Int×Int)).isSome→0<c.strings.size:=nofun
 rw[string_part name flags shown code atoms _ hgap]
 exact prepared_flags hpr StringFlags.chainPart
def Modifier.Reads (m:Modifier)(strict:Bool)(text:Bytes)(p:Pattern):Prop:=
 if m.flags.hexadecimal then HexString.read text=.ok p
 else ∃r,Regex.read text strict=.ok r∧r.pattern=p
section
variable {name:String}{m:Modifier}{text:Bytes}{c c':Compiler}
lemma readPattern_reads {p:Pattern}(h:(readPattern name m text).run c=(.ok p,c'))
 (hm:(m.flags.hexadecimal || m.flags.regexp)):m.Reads c.setting.strict text p:=by
 obtain⟨_,_,⟨⟩,h⟩:=Action.run_bind_ok.mp h
 unfold Modifier.Reads
 split at h
 ·next hh=>
  rw[if_pos hh]
  split at h
  ·next hr=>
   cases h
   exact hr
  ·cases h
 next hh=>
 rw[Bool.not_eq_true _ |>.mp hh,Bool.false_or]at hm
 rw[if_neg hh]
 rw[if_pos hm]at h
 split at h
 ·next r hr=>
  split at h
  ·cases h
   exact⟨r,hr,rfl⟩
  ·cases h
   exact⟨r,hr,rfl⟩
 ·cases h
lemma declareString_chains (h:(declareString name m text).run c=(.ok (),c'))
 (hm:(m.flags.hexadecimal||m.flags.regexp))
 (hc:c.Sound lists):
 ∃p lists',m.Reads c.setting.strict text p∧Extends c lists c' lists'∧
  c'.strings.size=c.strings.size+(p.parts (text.size+1) none).length∧
  (∀k x,(p.parts (text.size+1) none)[k]?=some x→
   Chains c' lists' ((m.declared name).forPattern p) (c.strings.size+k) x)∧
  (p.split.2=none→(c'.string c.strings.size).flags.chainPart=m.flags.chainPart):=by
 obtain⟨-,-,hok⟩:=declareString_ok h
 rw[hm]at hok
 obtain⟨p,d1,d2,d3,quality,hd1,hre,d,hd,ha,hd3⟩:=hok
 have hki:((m.declared name).flags.hexadecimal||(m.declared name).flags.regexp):=hm
 have hr:=readPattern_reads hre hki
 rw[hd1.setting]at hr
 have hst:=hd.extends hc
 obtain⟨lists',he,hs,hch⟩:=addParts_chains _ _ _ p none _ _ _ _ _ hst.sound nofun ha
 have hen:=hd3.extends he.sound
 rw[hd.strings]at hs hch
 refine⟨p,lists',hr,(hst.trans he).trans hen,by rw[hd3.strings,hs],
  fun k x hk=>(hch k x hk).extends hen,fun hp=>?_⟩
 have hsg:=addParts_chainPart hp ha
 rw[hd.strings]at hsg
 rw[string,hd3.strings]
 exact hsg
end
lemma keyed_of_conflict {f:StringFlags}(h:modifierConflict? f=none):(f.xor&&f.noCase)=false:=by
 refine Bool.eq_false_iff.2 fun hb=>?_
 rw[modifierConflict?,if_pos hb]at h
 cases h
lemma declareString_text {name:String}{m:Modifier}{text:Bytes}{c c':Compiler}
 (h:(declareString name m text).run c=(.ok (),c'))
 (hm:(m.flags.hexadecimal||m.flags.regexp||(m.flags.base64||m.flags.base64Wide))=false)
 (hc:c.Sound lists):
 0<text.size∧(m.flags.xor&&m.flags.noCase)=false∧∃lists',Extends c lists c' lists'∧
  c'.strings.size=c.strings.size+1∧
  Carries c' lists' c.strings.size (m.declared name) (some text) none∧
  (c'.string c.strings.size).flags.chainPart=m.flags.chainPart:=by
 obtain⟨he,hco,hok⟩:=declareString_ok h
 rw[hm]at hok
 obtain⟨d,d',q,hd,had,hd'⟩:=hok
 refine⟨Nat.pos_of_ne_zero fun hz=>?_,keyed_of_conflict hco,?_⟩
 ·rw[ByteArray.isEmpty,hz]at he
  cases he
 rw[addString_run]at had
 split at had
 next flags shown code atoms hp=>
  cases had
  have hgap:(none:Option (Int×Int)).isSome→0<d.strings.size:=nofun
  obtain⟨hcd,hf⟩:=prepared_fits hp
  have hst:=hd.extends hc
  have ha:=hst.sound.part name flags shown code atoms true hgap hcd hf
  have hen:=hd'.extends ha.sound
  rw[←hd.strings]
  refine⟨_,(hst.trans ha).trans hen,?_,(carries_part name hgap hp true hst.sound).extends hen,?_⟩
  ·rw[hd'.strings]
   exact (congrArg size (strings_plant ..)).trans (size_push _)
  ·rw[string,hd'.strings,←string,string_plant_size]
   exact prepared_flags hp StringFlags.chainPart
 ·cases had
end Rule
end PatternScan
