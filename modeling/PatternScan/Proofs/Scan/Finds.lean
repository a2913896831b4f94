import PatternScan.Proofs.Rule.Parts
import PatternScan.Proofs.Scan.Literals
/-! A string compiled from a pattern without anchors is found at just the offsets at which the pattern matches. -/
open Option
open PatternScan.Automaton.Trie PatternScan.Regex.Machine PatternScan.Form PatternScan.Regex.Pattern PatternScan.AtomList PatternScan.Limits PatternScan.Scan
namespace PatternScan
open List
open Automaton (Trie)
open Regex (Pattern Node Entry RunFlags Input Reports Text Derivation)
open Rule.Compiler (Ends hitsFor)
variable {s:RuleString}{m y a a' k o e:Nat}{p:Pattern}
def Regex.Pattern.entriesAt (p:Pattern)(a a':Nat):Array Entry:=
 p.noEntries.mapIdx fun k x=>(x.refer false (p.root.seat false 0 a k)).refer true (p.root.seat true 0 a' k)
namespace Scan
variable (c:SearchSetting)(b:Block)(j:Nat)
def Block.text (s:RuleString):Text:=⟨b.data,false,⟨s.flags.noCase,s.flags.dotAll⟩⟩
def backFlags (s:RuleString):RunFlags:=
 {runFlags s false with backwards:=true,exhaustive:=true}
section
variable {c b j}{z:Nat}
lemma shownLength_getD (r:Regex.Run)(l:Bool)(f:Int):
 (r.shownLength? l false).getD f=r.lengths.back?.elim (-1) Int.ofNat:=by
 unfold Regex.Run.shownLength?
 rw[Bool.and_false]
 rfl
lemma runHits_cases {bc:Option Nat}(h:(runHits c b j ⟨some y,bc⟩ m false (-1)).1=.success):
 let run:=runCode c.set.regexCode (c.set.string j) b.data m y (runFlags (c.set.string j) false)
 let found:=(runHits c b j ⟨some y,bc⟩ m false (-1)).2.2
 run.code=.success∧(run.lengths=#[]∧found=[]∨∃n∈run.lengths,match bc with
  | none=>found=[⟨j,m,n,false,0⟩]
  | some z=>
   let run:=runCode c.set.regexCode (c.set.string j) b.data m z (backFlags (c.set.string j))
   run.code=.success∧found=run.lengths.toList.map fun r=>⟨j,m-r,r+n,false,0⟩):=by
 rw[runHits]at h⊢
 dsimp only at h⊢
 generalize runCode c.set.regexCode (c.set.string j) b.data m y _=run at h⊢
 by_cases hc:(run.code != .success)
 ·grind
 have hok:run.code=.success:=by simpa using hc
 rw[if_neg hc,shownLength_getD]at h⊢
 refine⟨hok,?_⟩
 cases hl:run.lengths.back? with
 | none=>exact .inl ⟨Array.back?_eq_none_iff.1 hl,rfl⟩
 | some n=>
  rw[hl]at h
  refine .inr ⟨n,Array.mem_of_back? hl,?_⟩
  cases bc with
  | none=>rfl
  | some z=>exact⟨h,rfl⟩
end
/-- The runs of the code of a pattern, forwards from one address and backwards from another, report the places that
the pattern leads to. -/
structure Runs (p:Pattern)(a a':Nat):Prop where
 start:∀m≤b.data.size,
  let run:=runCode c.set.regexCode (c.set.string j) b.data m a (runFlags (c.set.string j) false)
  run.code=.success→Reports run (runFlags (c.set.string j) false) ⟨b.data,m⟩
   (p.root.Occurs (b.text (c.set.string j)))
 forward:∀k y,p.root.seat false 0 a k=some y→∀m≤b.data.size,
  let run:=runCode c.set.regexCode (c.set.string j) b.data m y (runFlags (c.set.string j) false)
  run.code=.success→Reports run (runFlags (c.set.string j) false) ⟨b.data,m⟩
   (p.root.Onward (b.text (c.set.string j)) false k 0)
 backward:∀k z,p.root.seat true 0 a' k=some z→∀m≤b.data.size,
  let run:=runCode c.set.regexCode (c.set.string j) b.data m z (backFlags (c.set.string j))
  run.code=.success→Reports run (backFlags (c.set.string j)) ⟨b.data,m⟩
   (p.root.Onward (b.text (c.set.string j)) true k 0)

/-- A string that is searched by running its code over single bytes, anywhere in a block. -/
structure Plain (s:RuleString):Prop where
 literal:s.flags.literal=false
 ascii:s.flags.ascii=true
 wide:s.flags.wide=false
 fixed:s.flags.fixedOffset=false
variable {c b j}
lemma Plain.hits_eq (h:Plain (c.set.string j))(bc:Nat)(e:Entry)
 (n:Option Nat)(m:Nat):hits c b ⟨j,bc,e,n⟩ m=
  if b.data.size ≤ m then (.success,[])
  else ((runHits c b j e m false (-1)).1,(runHits c b j e m false (-1)).2.2):=by
 rw[hits,patternHits]
 simp only[h.literal,h.ascii,h.wide,h.fixed,Bool.false_and,Bool.or_false,Bool.true_or,
  Bool.and_false,Bool.false_eq_true,if_false,if_true,decide_eq_true_eq]
lemma reach_runFlags (s:RuleString)(d:Bytes)(m:Nat):
 reach (runFlags s false) ⟨d,m⟩=min (d.size-m) regexInput:=by
 change min (d.size-m) _-_%1=_
 rw[Nat.mod_one,Nat.sub_zero]
lemma reach_backFlags (s:RuleString)(d:Bytes)(m:Nat):
 reach (backFlags s) ⟨d,m⟩=min m regexInput:=by
 change min m _-_%1=_
 rw[Nat.mod_one,Nat.sub_zero]
section
variable (hr:Runs c b j p a a')(hp:p.root.simple=true)
include hr hp
lemma Runs.occurs_of_anchor (hm:m<b.data.size)
 (hok:(runHits c b j ⟨p.root.seat false 0 a k,p.root.seat true 0 a' k⟩ m false (-1)).1=.success)
 {h:Hit}
 (hh:h∈(runHits c b j ⟨p.root.seat false 0 a k,p.root.seat true 0 a' k⟩ m false (-1)).2.2):
 h.string=j∧h.offset ≤ m∧p.root.Occurs (b.text (c.set.string j)) h.offset (h.offset+h.length):=by
 cases hy:p.root.seat false 0 a k with
 | none=>
  rw[hy]at hh
  cases hh
 | some y=>
  have hk:=(Node.seat_isSome_iff false p.root hp 0 a).1 (isSome_iff_exists.2 ⟨y,hy⟩)
  obtain⟨z,hz⟩:=isSome_iff_exists.1 ((Node.seat_isSome_iff true p.root hp 0 a').2 hk)
  rw[hy,hz]at hok hh
  obtain⟨hc,⟨-,hni⟩|⟨n,hn,hb,hfn⟩⟩:=runHits_cases hok
  ·rw[hni]at hh
   cases hh
  rw[hfn]at hh
  obtain⟨r,hrm,rfl⟩:=List.mem_map.1 hh
  obtain⟨-,hf⟩:=(hr.forward k y hy m hm.le hc).sound n hn
  obtain⟨hle,hb⟩:=(hr.backward k z hz m hm.le hb).sound r (Array.mem_toList_iff.1 hrm)
  have hle:r ≤ m:=hle rfl
  refine⟨rfl,Nat.sub_le _ _,?_⟩
  have he:m-r+(r+n)=m+n:=by omega
  rw[he]
  exact Node.occurs_of_onward p.root hp 0 m _ _ hb hf
lemma Runs.exists_of_onward (hk:k<p.root.anchors)(hm:m<b.data.size)
 (hba:p.root.Onward (b.text (c.set.string j)) true k 0 m o)
 (hf:p.root.Onward (b.text (c.set.string j)) false k 0 m e)(he:e≤b.data.size)
 (hre:e ≤ m+regexInput∧m≤o+regexInput)
 (hok:(runHits c b j ⟨p.root.seat false 0 a k,p.root.seat true 0 a' k⟩ m false (-1)).1=.success):
 ∃h∈(runHits c b j ⟨p.root.seat false 0 a k,p.root.seat true 0 a' k⟩ m false (-1)).2.2,h.offset=o:=by
 have hse:∀backwards a,(p.root.seat backwards 0 a k).isSome:=fun backwards a=>
  (Node.seat_isSome_iff backwards p.root hp 0 a).2 ⟨zero_le,by omega⟩
 obtain⟨y,hy⟩:=isSome_iff_exists.1 (hse false a)
 obtain⟨z,hz⟩:=isSome_iff_exists.1 (hse true a')
 rw[hy,hz]at hok⊢
 obtain⟨hc,⟨hni,-⟩|⟨n,hn,hb,hfn⟩⟩:=runHits_cases hok
 ·refine absurd hni ((hr.forward k y hy m hm.le hc).some e ?_ hf)
  change e ≤ m+_
  rw[reach_runFlags]
  omega
 have hne:Input.Near (backFlags (c.set.string j)) ⟨b.data,m⟩ o:=by
  change m≤o+_
  rw[reach_backFlags]
  omega
 obtain⟨r,hrm,hro⟩:=(hr.backward k z hz m hm.le hb).all rfl o hne hba
 rw[hfn]
 exact⟨_,List.mem_map.2 ⟨r,Array.mem_toList_iff.2 hrm,rfl⟩,hro.symm⟩
omit hp in
lemma Runs.start_iff (hm:m<b.data.size)(hok:(runHits c b j ⟨some a,none⟩ m false (-1)).1=.success):
 (∀h∈(runHits c b j ⟨some a,none⟩ m false (-1)).2.2,h.string=j∧h.offset=m∧
  p.root.Occurs (b.text (c.set.string j)) m (m+h.length))∧
 ∀e≤b.data.size,e ≤ m+regexInput→p.root.Occurs (b.text (c.set.string j)) m e→
  ∃h∈(runHits c b j ⟨some a,none⟩ m false (-1)).2.2,h.offset=m:=by
 obtain⟨hc,⟨hni,hf⟩|⟨n,hn,hf⟩⟩:=runHits_cases hok
 ·rw[hf]
  refine⟨nofun,fun e he hl ho=>absurd hni ((hr.start m hm.le hc).some e ?_ ho)⟩
  change e ≤ m+_
  rw[reach_runFlags]
  omega
 ·rw[hf]
  refine⟨fun h hh=>?_,fun _ _ _ _=>⟨_,mem_singleton_self _,rfl⟩⟩
  rw[mem_singleton.1 hh]
  exact⟨rfl,rfl,((hr.start m hm.le hc).sound n hn).2⟩
end
section
lemma entriesAt_getD (hp:p.root.simple)(k:Nat):(p.entriesAt a a')[k]?.getD ⟨none,none⟩=
  ⟨p.root.seat false 0 a k,p.root.seat true 0 a' k⟩:=by
 have hse:∀backwards a,(p.root.seat backwards 0 a k).isSome↔k<p.root.anchors:=by
  intro backwards a
  rw[Node.seat_isSome_iff backwards p.root hp]
  omega
 rw[entriesAt,noEntries]
 by_cases hk:k<p.root.anchors
 ·obtain⟨y,hy⟩:=isSome_iff_exists.1 ((hse false a).2 hk)
  obtain⟨z,hz⟩:=isSome_iff_exists.1 ((hse true a').2 hk)
  simp[hk,hy,hz,Entry.refer]
 ·have hn:∀backwards a,p.root.seat backwards 0 a k=none:=fun backwards a=>
   not_isSome_iff_eq_none.1 (mt (hse backwards a).1 hk)
  simp[hk,hn]
def itemsOf (rule:QualityRule)(flags:StringFlags)(p:Pattern)(a a':Nat):List AtomItem:=
 if (ofPattern rule flags p.root (p.entriesAt a a')).items.isEmpty then
  [⟨[],0,⟨some a,none⟩⟩]
 else (ofPattern rule flags p.root (p.entriesAt a a')).items
variable {rule:QualityRule}{flags:StringFlags}(hr:Runs c b j p a a')
 (hp:p.root.simple=true)(hplain:Plain (c.set.string j))
 (hok:∀x∈itemsOf rule flags p a a',∀i,Ends b x i→(hitsFor c b (j,x) i).1=.success)
include hr hp hplain hok
lemma Runs.occurs_of_hit {x:AtomItem}(hx:x∈itemsOf rule flags p a a'){i:Nat}
 (he:Ends b x i){h:Hit}(hh:h∈(hitsFor c b (j,x) i).2):
 h.string=j∧h.offset<b.data.size∧h.offset ≤ i-distance x∧
  p.root.Occurs (b.text (c.set.string j)) h.offset (h.offset+h.length):=by
 have hok:=hok x hx i he
 rw[hitsFor,hplain.hits_eq]at hok hh
 split at hh
 ·cases hh
 next hm=>
 rw[if_neg hm]at hok
 have hm:=not_le.1 hm
 unfold itemsOf at hx
 split at hx
 ·cases mem_singleton.1 hx
  obtain⟨hst,hof,ho⟩:=(hr.start_iff hm hok).1 h hh
  rw[hof]
  exact⟨hst,hm,le_rfl,ho⟩
 ·obtain⟨-,-,-,k,hk⟩:=ofPattern_item hx
  rw[entriesAt_getD hp]at hk
  rw[hk]at hok hh
  obtain⟨hst,hle,ho⟩:=hr.occurs_of_anchor hp hm hok hh
  exact⟨hst,by omega,hle,ho⟩
lemma Runs.exists_hit (hma:p.root.DigitMasks)(hc:flags.noCase=(c.set.string j).flags.noCase)
 (hf:Form.plain.Searched flags)(hsh:∀x∈itemsOf rule flags p a a',distance x=
  x.atom.length+x.backtrack)(ho:o<b.data.size)
 (hoc:p.root.Occurs (b.text (c.set.string j)) o e)(hl:e≤o+regexInput):
 ∃x∈itemsOf rule flags p a a',∃i ≤ max o e,Ends b x i∧
  (x.atom=[]→i=o)∧∃h∈(hitsFor c b (j,x) i).2,h.offset=o:=by
 obtain⟨d,hd⟩:=Node.Occurs.derived rfl p.root hp 0 o e hoc
 have hw:d.length≤b.data.size-o:=by
  have:=hd.word.length_le
  rwa[length_drop,Derivation.word,length_map]at this
 have hle:=hd.length
 by_cases hem:(ofPattern rule flags p.root (p.entriesAt a a')).items=[]
 ·have hi:itemsOf rule flags p a a'=[⟨[],0,⟨some a,none⟩⟩]:=by
   rw[itemsOf,hem]
   rfl
  have hx:(⟨[],0,⟨some a,none⟩⟩:AtomItem)∈itemsOf rule flags p a a':=
   hi▸mem_singleton_self _
  have he:Ends b ⟨[],0,⟨some a,none⟩⟩ o:=⟨ho.le,nil_suffix,zero_le⟩
  refine⟨_,hx,o,le_max_left _ _,he,fun _=>rfl,?_⟩
  have hok:=hok _ hx o he
  rw[hitsFor,hplain.hits_eq]at hok⊢
  have hm:¬b.data.size≤o-distance ⟨[],0,⟨some a,none⟩⟩:=not_le.2 ho
  rw[if_neg hm]at hok⊢
  exact (hr.start_iff ho hok).2 e (by omega) hl hoc
 obtain⟨x,hx,pos,byte,k,hps,hne,hpr,hen,hb⟩:=ofPattern_found rule flags
  (p.entriesAt a a') hma hc.symm hd.derives hem
  .plain hf
 have hv:x.atom.values.length=x.atom.length:=length_map _
 have hpo:0<x.atom.values.length:=length_pos_iff.2 hne
 have hpr:x.atom.values <+: d.word.drop pos:=by rwa[Form.width,one_mul]at hpr
 have hin:pos+x.atom.length≤d.length:=by
  have:=hpr.length_le
  rw[length_drop,Derivation.word,length_map]at this
  omega
 have hme:x∈itemsOf rule flags p a a':=by
  rw[itemsOf,if_neg (by simpa using hem)]
  exact hx
 have hdi:distance x=x.atom.length:=by rw[hsh x hme,hb,add_zero]
 have he:Ends b x (o+pos+x.atom.length):=by
  refine Rule.Compiler.ends_of_prefix (by omega) ?_ (by omega)
  rw[←drop_drop]
  exact hpr.trans (hd.word.drop pos)
 refine⟨x,hme,_,by omega,he,fun hn=>?_,?_⟩
 ·rw[hn]at hne
  exact absurd rfl hne
 have hok:=hok x hme _ he
 have hm:o+pos+x.atom.length-distance x=o+pos:=by omega
 rw[hitsFor,hplain.hits_eq,hm,if_neg (by omega),hen,entriesAt_getD hp]at hok⊢
 obtain⟨hbw,hfw⟩:=hd.onward pos byte k hps
 have hk:=(hd.derives.anchor_lt hps).2
 exact hr.exists_of_onward hp (by omega) (by omega) hbw hfw (by omega) (by omega) hok
end
lemma runCode_ok {code:Regex.Code}(hl:s.flags.linear=false){d:Bytes}
 {f:RunFlags}(h:(runCode code s d m y f).code=.success):
 runCode code s d m y f=Regex.run code y f ⟨d,m⟩∧(Regex.run code y f ⟨d,m⟩).result=.ok ():=by
 have hru:runCode code s d m y f=Regex.run code y f ⟨d,m⟩:=by
  rw[runCode,hl]
  rfl
 rw[hru]at h
 exact⟨hru,Regex.result_of_code h⟩
lemma runs_of_stands (hl:(c.set.string j).flags.linear=false)
 (hst:p.Stands false a c.set.regexCode)(hst':p.Stands true a' c.set.regexCode)
 (hp:p.root.simple)(ho:p.root.InOrder):Runs c b j p a a' where
 start m hm hc:=by
  obtain⟨hru,hok⟩:=runCode_ok hl hc
  rw[hru]
  have hpo:(⟨b.data,m⟩:Input).pos≤b.data.size:=hm
  exact hst.reports (.start _ _) (Node.mirrors hpo p.root hp ho) (hst.steady_of_simple hp (.start _ _)) rfl hm hok
 forward k y hy m hm hc:=by
  obtain⟨hru,hok⟩:=runCode_ok hl hc
  have hpo:(⟨b.data,m⟩:Input).pos≤b.data.size:=hm
  obtain⟨L,he,hmi⟩:=Node.seat_mirrors (f:=runFlags (c.set.string j) false) hpo p.root hp ho 0 a hy
  rw[hru]
  exact hst.reports he hmi (hst.steady_of_simple hp he) rfl hm hok
 backward k z hz m hm hc:=by
  obtain⟨hru,hok⟩:=runCode_ok hl hc
  have hpo:(⟨b.data,m⟩:Input).pos≤b.data.size:=hm
  obtain⟨L,he,hmi⟩:=Node.seat_mirrors (f:=backFlags (c.set.string j)) hpo p.root hp ho 0 a' hz
  rw[hru]
  exact hst'.reports he hmi (hst'.steady_of_simple hp he) rfl hm hok
end Scan
variable {α:Type}
structure Rule.Modifier.Single (m:Modifier):Prop where
 ascii:m.flags.ascii=true
 wide:m.flags.wide=false
 xor:m.flags.xor=false
 literal:m.flags.literal=false
 fits:m.flags.fitsInAtom=false
 base:m.flags.base64=false∧m.flags.base64Wide=false
lemma Rule.Modifier.Single.tried {m:Modifier}(hm:m.Single){f:PatternScan.Form}{k:UInt8}
 (h:f.Tried k m.flags):f=.plain∧k=0:=by
 refine⟨?_,(h.2 hm.xor).2⟩
 cases f with
 | plain=>rfl
 | wide=>cases hm.wide.symm.trans (h.1 rfl)
lemma Rule.Modifier.Single.worded {m:Modifier}(hm:m.Single):
 PatternScan.Form.plain.Worded 0 m.flags m.keys:=⟨.inl hm.wide,by rw[hm.xor];rfl⟩
namespace Rule.Compiler
variable {text:Option Bytes}
/-- What the atoms of a string lead to are the matches of a pattern: only those, and all that a run can reach. -/
structure Finds (c:SearchSetting)(b:Block)(lists:List (Nat×List AtomItem))(j:Nat)
 (M:Nat→Nat→Prop):Prop where
 sound:∀x,(j,x)∈registered lists→∀i,Ends b x i→∀h∈(hitsFor c b (j,x) i).2,
  h.offset<b.data.size∧M h.offset (h.offset+h.length)
 complete:∀o e,o<b.data.size→M o e→e≤o+regexInput→
  ∃x,(j,x)∈registered lists∧∃i,Ends b x i∧∃h∈(hitsFor c b (j,x) i).2,h.offset=o
variable {C:Compiler}{lists:List (Nat×List AtomItem)}{c:SearchSetting}{b:Block}{j:Nat}
 {m:Modifier}{p:Pattern}{quality:QualityRule}{code code':Regex.Code}{flags:StringFlags}
 {shown:Bytes}{atoms:AtomList}
def literalOf (text:Option Bytes):Option Pattern→Option Bytes
 | some p=>p.root.literal?
 | none=>text
lemma prepared_literal {p:Option Pattern}{sh:Bytes}(h:literalOf text p=some sh)
 (hp:prepared quality m text p code=.ok (flags,shown,code',atoms)):
 shown=sh∧flags={ m.flags with
  literal:=true
  fitsInAtom:=m.flags.fitsInAtom ||
   decide ((if m.flags.wide then 2*shown.size else shown.size)≤atomLength) }∧
  atoms=ofText quality flags m.keys shown:=by
 unfold prepared at hp
 cases p<;>rw[literalOf]at h<;>simp only[h]at hp<;>cases hp <;>
  exact⟨rfl,rfl,rfl⟩
lemma prepared_pattern (h:p.root.literal?=none)
 (hp:prepared quality m none (some p) code=.ok (flags,shown,code',atoms)){l:Regex.Code}
 (hl:∀x<code'.size,l.fetch x=code'.fetch x):
 flags={m.flags with fixedOffset:=false}∧∃a a',p.Stands false a l∧
  p.Stands true a' l∧atoms.items=itemsOf quality flags p a a':=by
 unfold prepared at hp
 simp only[h]at hp
 obtain⟨pr,hpt,hp⟩:=bind_eq_ok.1 hp
 cases hp
 obtain⟨code1,entries1,entries2,h1,h2,hi⟩:=patternParts_eq_ok hpt
 obtain⟨hst1,hsi1,-,hen1⟩:=emit_stands h1
 obtain⟨hst2,hsi2,hfr2,hen2⟩:=emit_stands h2
 refine⟨rfl,code.size,code1.size,hst1.congr fun x _ hx=>?_,hst2.congr fun x _ hx=>hl x (by omega),?_⟩
 ·rw[hl x (by omega),hfr2 x (by omega)]
 ·rw[hi,hen2,hen1,Array.mapIdx_mapIdx]
  rfl
lemma core_get {s:RuleString}(hc:s.flags.core=flags.core)(g:StringFlags→α)
 (hg:∀f,g f.core=g f:=by intro;rfl):g s.flags=g flags:=by
 rw[←hg,hc,hg]
lemma Carries.flag_eq {p:Option Pattern}(h:Carries C lists j m text p)
 (g:StringFlags→α)(hc:∀f,g f.core=g f:=by intro;rfl)
 (hg:∀(f:StringFlags) literal fits fixed,g { f with
  literal:=literal,fitsInAtom:=fits,fixedOffset:=fixed }=g f:=by intros;rfl):
 g (C.string j).flags=g m.flags:=by
 obtain⟨-,quality,code,flags,shown,code',atoms,hpr,hfl,-⟩:=h
 exact (core_get hfl g hc).trans (prepared_flags hpr g hg)
lemma Carries.exists_literal (h:Carries C lists j m none (some p))(hm:m.flags.literal=false)
 (hl:(C.string j).flags.literal):∃shown,p.root.literal?=some shown:=by
 refine ne_none_iff_exists'.1 fun hn=>?_
 obtain⟨-,quality,code,flags,shown,code',atoms,hpr,hc,-⟩:=h
 rw[core_get hc StringFlags.literal,(prepared_pattern hn hpr fun _ _=>rfl).1]at hl
 cases hm.symm.trans hl

/-- What the atoms of a string lead to are the wordings of a text, as far as keys and forms are compared with those of
the string. -/
structure Words (c:SearchSetting)(b:Block)(lists:List (Nat×List AtomItem))(j:Nat)
 (m:Modifier)(text:Bytes):Prop where
 held:(c.set.string j).text=text
 sound:∀x,(j,x)∈registered lists→∀i,Ends b x i→∀h∈(hitsFor c b (j,x) i).2,
  ∃(form:PatternScan.Form)(k:UInt8),form.Tried k m.flags∧
   (Exact m.flags m.keys text.size→form.Worded k m.flags m.keys)∧
   h.length=form.width*text.size∧
   b.data.Spelled m.flags.noCase h.offset (form.coded k text.list)
 complete:∀(form:PatternScan.Form)(k:UInt8)(o:Nat),form.Worded k m.flags m.keys→
  b.data.Spelled m.flags.noCase o (form.coded k text.list)→
  ∃x,(j,x)∈registered lists∧∃i,Ends b x i∧∃h∈(hitsFor c b (j,x) i).2,h.offset=o
variable (hs:C.Sound lists)(hsh:C.Short)(hset:c.set=C.ruleSet)
include hs hsh hset
lemma Carries.words {p:Option Pattern}(h:Carries C lists j m text p)(hfo:m.flags.ascii∨m.flags.wide)
 (hk:m.flags.xor→m.flags.noCase=false)
 (hb:m.flags.base64=false∧m.flags.base64Wide=false)
 (hf:m.flags.fitsInAtom=false)(hte:literalOf text p=some shown)
 (hne:0<shown.size)(hfi:(C.string j).flags.fixedOffset=false):
 Words c b lists j m shown:=by
 obtain⟨hlt,quality,code,flags,shown,code',atoms,hpr,hc,-,hsho,-,hi⟩:=h
 obtain⟨rfl,hfl,rfl⟩:=prepared_literal hte hpr
 have hst:c.set.string j=C.string j:=by rw[hset];rfl
 have hsho:(c.set.string j).text=shown:=by rw[hst,hsho]
 rw[←hst]at hc hfi
 have hge {α:Type} (g:StringFlags→α) (hg:∀f,g f.core=g f:=by intro;rfl)
  (hm:g flags=g m.flags:=by cases hfl;rfl):g (c.set.string j).flags=g m.flags:=
  (core_get hc g hg).trans hm
 have hw (form:PatternScan.Form) (k:UInt8):=hge (form.Worded k · m.keys)
 have hca:=hge StringFlags.noCase
 have hwi:=hge StringFlags.wide
 have ht:Texted (c.set.string j):=by
  refine⟨?_,hfi,?_,?_,?_,?_,hsho▸hne⟩
  ·rw[core_get hc StringFlags.literal,hfl]
  ·rwa[hge StringFlags.ascii,hwi]
  ·rwa[hge StringFlags.xor,hca]
  ·rwa[hge StringFlags.base64,hge StringFlags.base64Wide]
  ·rw[core_get hc StringFlags.fitsInAtom,hfl,hf,Bool.false_or,RuleString.extent,hwi,hsho]
 have he:(c.set.string j).extent<65536:=hst▸hsh j hlt
 obtain⟨start,hin,ha⟩:=exists_ofText_iff quality flags m.keys
  (by rwa[hfl]) (by rwa[hfl]) shown
 have hcu:Cut (c.set.string j) m.keys (fun x=>(j,x)∈registered lists) start:=by
  refine⟨hsho▸hin,fun v n=>?_⟩
  have hsa (form:PatternScan.Form) (k:UInt8):=core_get hc (form.Worded k · m.keys)
  simp only[hi,ha,hsho,core_get hc StringFlags.noCase,hsa]
 have hdi:∀x,(j,x)∈registered lists→
  distance x=x.atom.length+x.backtrack:=fun x hx=>hs.distance_eq hsh hx
 refine⟨hsho,?_,?_⟩
 ·intro x hx i hen hit hh
  obtain⟨form,k,htr,hex,hl,hsp⟩:=ht.spelled_of_hit hcu he hx
   (hdi x hx) hen hh
  rw[hsho,hca]at hsp
  rw[hsho]at hl hex
  refine⟨form,k,?_,?_,hl,hsp⟩
  ·rwa[hge (form.Tried k ·)]at htr
  ·rwa[hw,hge (Exact · m.keys shown.size)]at hex
 ·intro form k o hwo ho
  rw[←hw]at hwo
  rw[←hsho,←hca]at ho
  exact ht.exists_hit hcu he hdi hwo ho
variable (hm:m.Single)
include hm
lemma Carries.finds_text (h:Carries C lists j m none (some p)){text:Bytes}
 (ht:p.root.literal?=some text)(hne:0<text.size)
 (hf:(C.string j).flags.fixedOffset=false):
 Finds c b lists j (p.root.Occurs (b.text (C.string j))):=by
 have hw:Words c b lists j m text:=h.words hs hsh hset (.inl hm.ascii)
  (by rw[hm.xor];exact nofun) hm.base hm.fits ht hne hf
 have hc:(b.text (C.string j)).comparison.ignoreCase=m.flags.noCase:=h.flag_eq StringFlags.noCase
 have ho:=fun s e=>Node.occurs_text (x:=b.text (C.string j)) rfl ht s e
 rw[hc]at ho
 constructor
 ·intro x hx i he hit hh
  obtain⟨form,k,htr,-,hl,hsp⟩:=hw.sound x hx i he hit hh
  obtain⟨rfl,rfl⟩:=hm.tried htr
  rw[coded_plain]at hsp
  rw[Form.width,one_mul]at hl
  exact⟨((hits_inside _ _).2 hit hh).2,(ho _ _).2 ⟨by rw[hl],hsp⟩⟩
 ·intro o e _ hoc _
  refine hw.complete .plain 0 o hm.worded ?_
  rw[coded_plain]
  exact ((ho o e).1 hoc).2
variable (h:Carries C lists j m none (some p))
include h
lemma Carries.finds_code (hp:p.root.simple)(ht:p.root.literal?=none)(hma:p.root.DigitMasks)
 (hru:∀a a',p.Stands false a c.set.regexCode→p.Stands true a' c.set.regexCode→Runs c b j p a a')
 (hok:∀x,(j,x)∈registered lists→∀i,Ends b x i→(hitsFor c b (j,x) i).1=.success):
 Finds c b lists j (p.root.Occurs (b.text (C.string j))):=by
 obtain⟨hlt,quality,code,flags,shown,code',atoms,hpr,hc,hfi,-,hco,hi⟩:=h
 have hla:∀x<code'.size,c.set.regexCode.fetch x=code'.fetch x:=by
  rw[hset]
  exact hco.2
 obtain⟨hfl,a,a',hst,hst',ha⟩:=prepared_pattern ht hpr hla
 have hw:=core_get hc StringFlags.wide
 have has:=core_get hc StringFlags.ascii
 have hca:=core_get hc StringFlags.noCase
 have hli:=core_get hc StringFlags.literal
 have hstr:c.set.string j=C.string j:=by rw[hset];rfl
 have hplain:Plain (c.set.string j):=by
  rw[hstr]
  refine⟨?_,?_,?_,Bool.eq_false_iff.2 fun hf=>?_⟩
  ·rw[hli,hfl]
   exact hm.literal
  ·rw[has,hfl]
   exact hm.ascii
  ·rw[hw,hfl]
   exact hm.wide
  ·have:=hfi hf
   rw[hfl]at this
   cases this
 have hme:∀x,(j,x)∈registered lists↔x∈itemsOf quality flags p a a':=fun x=>by rw[hi,ha]
 have hok:∀x∈itemsOf quality flags p a a',∀i,Ends b x i→
  (hitsFor c b (j,x) i).1=.success:=fun x hx=>hok x ((hme x).2 hx)
 have hfo:Form.plain.Searched flags:=by
  left
  rw[hfl]
  exact hm.wide
 rw[←hstr]
 constructor
 ·intro x hx i he hit hh
  obtain⟨-,hof,-,hoc⟩:=(hru a a' hst hst').occurs_of_hit hp hplain hok
   ((hme x).1 hx) he hh
  exact⟨hof,hoc⟩
 ·intro o e ho hoc hl
  obtain⟨x,hx,i,-,he,-,hit⟩:=(hru a a' hst hst').exists_hit hp hplain hok hma
   (by rw[hstr,hca]) hfo (fun x hx=>hs.distance_eq hsh ((hme x).2 hx)) ho hoc hl
  exact⟨x,(hme x).2 hx,i,he,hit⟩
end Rule.Compiler
end PatternScan
