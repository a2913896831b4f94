import PatternScan.Proofs.Scan.Finds
import PatternScan.Proofs.Scan.Matches
import PatternScan.Proofs.Scan.Resumption
/-! A scan of a piece of memory reports a regular expression at just the offsets at which it matches. -/
open Array
open PatternScan.Scan PatternScan.Scan.Findings PatternScan.Automaton.Trie PatternScan.Limits PatternScan.Scan.Progress
namespace PatternScan
open Automaton (Trie)
variable {j:Nat}{S:Finset Nat}
namespace Scan
/-- A string whose matches are listed as they are found. -/
structure Lone (s:RuleString):Prop where
 chain:s.flags.chainPart=false
 word:s.flags.fullWord=false
def Hit.Alone (c:SearchSetting)(b:Block)(h:Hit):Prop:=
 (c.set.string h.string).flags.fullWord=true→standsAlone b.data h.offset h.length h.wide=true

/-- Of some matches of a string those that stand alone have been listed, unless one was at the offset already. -/
structure Records (c:SearchSetting)(b:Block)(j:Nat)(H:Hit→Prop)(f f':Findings):Prop where
 has:∀o,(f'.of j).Has o↔(∃h,(H h∧h.Alone c b)∧h.offset=o)∨(f.of j).Has o
 mem:∀m∈(f'.of j).toList,(∃h,(H h∧h.Alone c b)∧h.offset=m.offset∧h.length=m.length)∨m∈(f.of j).toList

/-- The matches of a string are in a block, in order, and at given offsets. -/
structure Lists (c:SearchSetting)(b:Block)(j:Nat)(S:Finset Nat)(f:Findings):Prop where
 sized:f.Sized c.set.strings.size
 ranked:(f.of j).Ranked b
 within:∀o,(f.of j).Has o → o∈S
structure Hit.OneOf (b:Block)(j:Nat)(S:Finset Nat)(h:Hit):Prop where
 string:h.string=j
 offset:h.offset<b.data.size
 mem:h.offset∈S
variable {c:SearchSetting}{b:Block}
lemma Lists.aside {f f':Findings}(hst:f.Steps j j c.set.strings.size f')
 (hf:Lists c b j S f):Lists c b j S f'∧f'.of j=f.of j:=by
 obtain⟨hsi',ha⟩:=hst hf.sized
 have hof:f'.of j=f.of j:=ha.confirmed j le_rfl le_rfl
 exact⟨⟨hsi',by rw[hof];exact hf.ranked,by rw[hof];exact hf.within⟩,hof⟩
namespace Records
variable {H H':Hit→Prop}{f f' f'':Findings}
lemma congr (h:Records c b j H f f')(hH:∀x,H x↔H' x):Records c b j H' f f':=by
 simpa only[funext fun x=>propext (hH x)]using h
lemma same (hof:f'.of j=f.of j)(hn:∀h,H h→¬h.Alone c b):Records c b j H f f':=by
 refine⟨fun o=>?_,fun m hm=>.inr (hof▸hm)⟩
 rw[hof]
 exact (or_iff_right fun⟨h,hh,_⟩=>hn h hh.1 hh.2).symm
lemma trans (h:Records c b j H f f')(h':Records c b j H' f' f''):Records c b j (fun x=>H x∨H' x) f f'' where
 has o:=by
  rw[h'.has,h.has]
  simp only[or_and_right,exists_or]
  exact or_left_comm.trans or_assoc.symm
 mem m hm:=by
  rcases h'.mem m hm with⟨x,hx,hm⟩|hm
  ·exact .inl ⟨x,⟨.inr hx.1,hx.2⟩,hm⟩
  ·rcases h.mem m hm with⟨x,hx,hm⟩|hm
   ·exact .inl ⟨x,⟨.inl hx.1,hx.2⟩,hm⟩
   ·exact .inr hm
end Records
variable (hidx:(c.set.string j).index=j)(hj:j<c.set.strings.size)
 (hch:(c.set.string j).flags.chainPart=false)(heven:b.Even)
 (hfew:S.card<stringMatches)
include hidx hj hch heven hfew
lemma take_lists {h:Hit}(hh:h.OneOf b j S){f:Findings}(hf:Lists c b j S f):
 (h.take c b f).1=.success∧Lists c b j S (h.take c b f).2∧Records c b j (·=h) f (h.take c b f).2:=by
 have hfu:((f.confirmed.getD (c.set.string j).index .empty).size==stringMatches)=false:=by
  have hle:(f.confirmed.getD j .empty).size≤S.card:=hf.ranked.size_le hf.within
  rw[hidx,beq_eq_false_iff_ne]
  omega
 have hin:(h.listed c b).In b:=⟨rfl,hh.offset⟩
 obtain⟨hst,-,hme⟩:=hh
 by_cases hsk:((c.set.string h.string).flags.fullWord&&!standsAlone b.data h.offset h.length h.wide)=true
 ·rw[Hit.take,accept,if_pos hsk]
  refine⟨rfl,hf,.same rfl ?_⟩
  rintro _ rfl ha
  rw[Bool.and_eq_true]at hsk
  rw[ha hsk.1]at hsk
  cases hsk.2
 have ha:h.Alone c b:=by simpa[Hit.Alone]using hsk
 subst hst
 rw[Hit.take_eq c b hch,if_neg hsk,confirm,insertInto,hfu,if_neg Bool.false_ne_true,hidx]
 generalize (c.set.string h.string).flags.greedy=replace
 have hof:(f.confirmed.modify h.string fun l=>l.insert (h.listed c b) replace).getD h.string .empty=
  (f.of h.string).insert (h.listed c b) replace:=by
  have hlt:h.string<f.confirmed.size:=hf.sized.confirmed▸hj
  rw[of,getD_eq_getD_getElem?,getElem?_modify,if_pos rfl,getD_eq_getD_getElem?,getElem?_eq_getElem hlt]
  rfl
 have hha (o:Nat):((f.of h.string).insert (h.listed c b) replace).Has o↔
  o=h.offset∨(f.of h.string).Has o:=MatchList.has_insert hf.ranked heven hin replace o
 refine⟨rfl,⟨⟨?_,hf.sized.pending,hf.sized.silenced⟩,?_,fun o=>?_⟩,fun o=>?_,fun m=>?_⟩
 ·rw[size_modify]
  exact hf.sized.confirmed
 all_goals
  rw[of]
  rw[hof]
 ·exact hf.ranked.insert hin _
 ·rw[hha]
  rintro (rfl|ho)
  ·exact hme
  ·exact hf.within o ho
 ·grind
 intro hm
 rcases MatchList.mem_insert hm with hm|rfl|⟨-,y,hy,hp,rfl⟩
 ·exact .inr hm
 ·exact .inl ⟨h,⟨rfl,ha⟩,rfl,rfl⟩
 ·have hoff:=((hf.ranked.inside y hy).position_eq_iff hin heven).1 hp
  exact .inl ⟨h,⟨rfl,ha⟩,hoff.symm,rfl⟩
lemma open_lists:Open c b j j (Hit.OneOf b j S) (Lists c b j S) where
 sized _ hf:=hf.sized
 aside _ _ hst hf:=(hf.aside hst).1
 take _ hh _ hf:=
  let ⟨hok,hf',_⟩:=take_lists hidx hj hch heven hfew hh hf
  ⟨hok,hf'⟩
lemma Taken.records {f f':Findings}{hs:List Hit}(ht:Taken c b j j f hs f'):
 Lists c b j S f→(∀h∈hs,h.OneOf b j S)→Records c b j (·∈hs) f f':=by
 induction ht with
 | done=>exact fun _ _=>.same rfl nofun
 | @take f f1 f' h hs hh _ ih=>
  intro hf hm
  obtain⟨-,hf1,hr⟩:=take_lists hidx hj hch heven hfew (hm h List.mem_cons_self) hf
  rw[hh]at hf1 hr
  refine (hr.trans (ih hf1 fun y hy=>hm y (List.mem_cons_of_mem _ hy))).congr fun x=>?_
  exact List.mem_cons.symm
 | aside hst _ ih=>
  intro hf hm
  obtain⟨hf',hof⟩:=hf.aside hst
  have hr:=ih hf' hm
  exact⟨by rw[←hof];exact hr.has,by rw[←hof];exact hr.mem⟩
end Scan
namespace Rule.Compiler
def Led (c:SearchSetting)(b:Block)(lists:List (Nat×List AtomItem))(j:Nat)(h:Hit):Prop:=
 ∃x,(j,x)∈registered lists∧∃i,Ends b x i∧h∈(hitsFor c b (j,x) i).2
section
variable {C:Compiler}{lists:List (Nat×List AtomItem)}{c:SearchSetting}{b:Block}
 (hs:C.Sound lists)(hshort:C.Short)(hset:c.set=C.ruleSet)(hfast:c.fast=false)
 (hj:j<C.strings.size)
include hs hshort hset hfast hj
lemma search_records (hch:(C.string j).flags.chainPart=false)
 (hn:j+1<C.strings.size→(C.string (j+1)).link=none)(heven:b.Even)
 (hfew:S.card<stringMatches)(hS:∀h,Led c b lists j h→h.offset∈S){p p':Progress}
 (hsi:p.findings.Sized c.set.strings.size)(hem:p.findings.of j=.empty)(hl:¬p.Silent j)
 (hse:p.search c b=(.success,p')):
 (∀x,(j,x)∈registered lists→∀i,Ends b x i→(hitsFor c b (j,x) i).1=.success)∧
  Records c b j (Led c b lists j) p.findings p'.findings:=by
 have hstr:c.set.string j=C.string j:=by rw[hset];rfl
 have hidx:(c.set.string j).index=j:=hstr▸hs.index j hj
 have hj':j<c.set.strings.size:=by rw[hset];exact hj
 have hch':(c.set.string j).flags.chainPart=false:=hstr▸hch
 have hc:Closed c.set.strings j j:=⟨le_rfl,by rw[hset];exact hn⟩
 have hst:Lists c b j S p.findings:=by
  refine⟨hsi,by rw[hem];exact MatchList.ranked_empty b,?_⟩
  rw[hem]
  rintro o ⟨m,hm,-⟩
  cases hm
 have hK:∀x∈registered lists,j≤x.1→x.1≤j→∀i,Ends b x.2 i→
  ∀h∈(hitsFor c b x i).2,h.OneOf b j S:=by
  rintro⟨k,x⟩ hx hlo hhi i he h hh
  obtain rfl:k=j:=le_antisymm hhi hlo
  obtain⟨hxj,ho⟩:=(hits_inside _ _).2 h hh
  exact⟨hxj,ho,hS h ⟨x,hx,i,he,hh⟩⟩
 obtain⟨ht,hco⟩:=search_taken hs hshort hset hfast hc
  (open_lists hidx hj' hch' heven hfew) hK hst
  (fun i hlo hhi=>le_antisymm hhi hlo▸hl) hse
 have hle:∀h,h∈(List.range (b.data.size+1)).flatMap (hitsAt c b lists j j)↔Led c b lists j h:=by
  intro h
  constructor
  ·intro hh
   obtain⟨i,hi,hat⟩:=List.mem_flatMap.1 hh
   obtain⟨⟨k,x⟩,hx,hin,he,hht⟩:=(mem_hitsAt hs hshort hset
    (Nat.lt_succ_iff.1 (List.mem_range.1 hi))).1 hat
   obtain rfl:k=j:=le_antisymm hin.2 hin.1
   exact⟨x,hx,i,he,hht⟩
  ·rintro⟨x,hx,i,he,hh⟩
   refine List.mem_flatMap.2 ⟨i,List.mem_range.2 (Nat.lt_succ_of_le he.le),?_⟩
   exact (mem_hitsAt hs hshort hset he.le).2 ⟨(j,x),hx,⟨le_rfl,le_rfl⟩,he,hh⟩
 refine⟨fun x hx i he=>hco _ hx le_rfl le_rfl i he,?_⟩
 refine (ht.records hidx hj' hch' heven hfew hst fun h hh=>?_).congr hle
 obtain⟨x,hx,i,he,hh⟩:=(hle h).1 hh
 exact hK (j,x) hx le_rfl le_rfl i he h hh
lemma search_has (hl:Lone (C.string j))
 (hn:j+1<C.strings.size→(C.string (j+1)).link=none)(heven:b.Even)
 (hfew:S.card<stringMatches)
 (hS:∀x,(j,x)∈registered lists→∀i,Ends b x i→∀h∈(hitsFor c b (j,x) i).2,h.offset∈S)
 {p p':Progress}(hsi:p.findings.Sized c.set.strings.size)(hem:p.findings.of j=.empty)
 (hlo:¬p.Silent j)(hse:p.search c b=(.success,p')):
 (∀x,(j,x)∈registered lists→∀i,Ends b x i→(hitsFor c b (j,x) i).1=.success)∧
  ∀o,(p'.findings.of j).Has o↔∃x,(j,x)∈registered lists∧
   ∃i,Ends b x i∧∃h∈(hitsFor c b (j,x) i).2,h.offset=o:=by
 obtain⟨hc,hr⟩:=search_records hs hshort hset hfast hj hl.chain hn heven hfew
  (fun h ⟨x,hx,i,he,hh⟩=>hS x hx i he h hh) hsi hem hlo hse
 have ha (x:AtomItem)(i:Nat)(h:Hit)(hh:h∈(hitsFor c b (j,x) i).2):h.Alone c b:=by
  obtain⟨hxj,-⟩:=(hits_inside _ _).2 h hh
  intro hw
  rw[hxj,hset]at hw
  cases hl.word.symm.trans hw
 refine⟨hc,fun o=>?_⟩
 rw[hr.has,hem,or_iff_left (by rintro⟨m,hm,-⟩;cases hm)]
 constructor
 ·rintro⟨h,⟨⟨x,hx,i,he,hh⟩,-⟩,ho⟩
  exact⟨x,hx,i,he,h,hh,ho⟩
 ·rintro⟨x,hx,i,he,h,hh,ho⟩
  exact⟨h,⟨⟨x,hx,i,he,hh⟩,ha x i h hh⟩,ho⟩
end
end Rule.Compiler
open Regex (Pattern Node)
open Scan.Source (ofBytes)
variable {j:Nat}{n:Node}{t:Bytes}{s:Bool}{lists:List (Nat×List AtomItem)}{p:Pattern}
namespace Scan.Scanner
variable (x:Scanner)(cfg:Configuration)(listener:Listener)
lemma scan_ofBytes {d:Bytes}(h:(x.scan cfg (some listener) (ofBytes d)).code=.success):
 ∃p,(x.outset (ofBytes d)).2.search (x.searchSetting cfg listener) ⟨0,d⟩=(.success,p)∧
  ∀e∈(x.scan cfg (some listener) (ofBytes d)).events,x.Reports p.findings e:=by
 obtain⟨cd,T,q,e,hp,hsc⟩:=x.scan_eq_finish cfg listener (ofBytes d)
 rw[hsc]at h⊢
 have hf:(ofBytes d).next=(some ⟨0,some d,none⟩,{ofBytes d with position:=1}):=rfl
 have hl:({ofBytes d with position:=1}:Source).next=(none,{ofBytes d with position:=1}):=rfl
 cases hp with
 | stop hn=>cases hf.symm.trans hn
 | fail _ _ hne=>
  rw[finish,if_pos (bne_iff_ne.2 hne)]at h
  exact absurd h hne
 | on hn hb hr=>
  cases hf.symm.trans hn
  cases hr with
  | fail hn=>cases hl.symm.trans hn
  | on hn=>cases hl.symm.trans hn
  | stop hn=>
   cases hl.symm.trans hn
   have hse:(⟨x.findings.start x.set,#[],x.culprit⟩:Progress).search
    (x.searchSetting cfg listener) ⟨0,d⟩=(.success,q):=by
    exact Prod.ext (Prod.mk.inj hb).1 (Prod.mk.inj (Prod.mk.inj hb).2).1
   refine⟨q,hse,?_⟩
   have hq:∀e∈q.events,e.report?=none:=by
    have hev:=(search_accepts (c:=x.searchSetting cfg listener) (b:=⟨0,d⟩)
     (fun j=>⟨fun _=>trivial,fun _ _=>trivial,by intros;trivial⟩)
     (fun _ _=>trivial) ⟨x.findings.start x.set,#[],x.culprit⟩).events
    rw[hse]at hev
    exact fun e he=>(hev e he).resolve_left nofun
   exact conclude_reports ⟨x.set,x.mask,x.objects,e,Findings.empty x.set,q.culprit⟩ cfg listener _ hq e
lemma has_ruleMatches {f:Findings}{r:Rule}(hidx:(x.set.string j).index=j)
 (hme:j∈r.strings)(o:Nat):
 (∃l,(j,l)∈x.ruleMatches f r∧l.Has o)↔(f.of j).Has o:=by
 have hli:∀l,(j,l)∈x.ruleMatches f r↔l=f.of j∧l.isEmpty=false:=by
  intro l
  rw[ruleMatches,List.mem_filterMap]
  constructor
  ·rintro⟨k,-,hk⟩
   dsimp only at hk
   split at hk
   ·cases hk
   grind
  ·rintro⟨rfl,hne⟩
   refine⟨j,hme,?_⟩
   dsimp only
   rw[hidx,hne]
   rfl
 constructor
 ·rintro⟨l,hl,hh⟩
  rwa[((hli l).1 hl).1]at hh
 intro hh
 refine⟨f.of j,(hli _).2 ⟨rfl,?_⟩,hh⟩
 obtain⟨m,hm,-⟩:=hh
 rw[Bool.eq_false_iff]
 intro he
 rw[LinkedList.isEmpty_iff.1 he]at hm
 cases hm
lemma outset_ofBytes (hfr:x.findings=Findings.empty x.set)(d:Bytes)(j:Nat):
 let p:=(x.outset (ofBytes d)).2
 p.findings.Sized x.set.strings.size∧p.findings.of j=.empty∧¬p.Silent j:=by
 have hf:(x.outset (ofBytes d)).2.findings=(Findings.empty x.set).start x.set:=by
  rw[←hfr]
  rfl
 have hr:∀{α:Type}(n:Nat)(a:α),(replicate n a).getD j a=a:=by
  intro α n a
  rw[getD_eq_getD_getElem?,getElem?_replicate]
  split<;>rfl
 dsimp only
 rw[Silent,hf]
 refine⟨⟨size_replicate,size_replicate,size_replicate⟩,hr _ _,?_⟩
 rw[show ((Findings.empty x.set).start x.set).silenced.getD j false=false from hr _ _]
 simp
end Scan.Scanner
lemma Regex.Node.literal_nonempty (hn:n≠.cat [])(h:n.literal?=some t):0<t.size:=by
 cases n with
 | literal b v=>
  cases h
  exact Nat.one_pos
 | cat pr=>
  obtain⟨l,hl,rfl⟩:=Option.map_eq_some_iff.1 h
  cases pr with
  | nil=>exact absurd rfl hn
  | cons n _=>
   cases n with
   | literal b v=>
    obtain⟨l,-,rfl⟩:=Option.map_eq_some_iff.1 hl
    exact Nat.succ_pos _
   | _=>cases hl
 | _=>cases h
lemma Regex.Node.Occurs.le {x:Text}(hx:x.wide=false)(hn:n.simple)
 {s e:Nat}(h:n.Occurs x s e):s≤e∧e-s≤x.data.size-s:=by
 obtain⟨d,hd⟩:=derived hx n hn 0 s e h
 have hw:=hd.word.length_le
 have hl:=hd.length
 rw[List.length_drop,Bytes.length_list,Derivation.word,List.length_map]at hw
 omega
namespace Rule.Compiler
/-- A regular expression in one part is found at just the offsets at which it matches. -/
lemma Carries.finds_regexp {C:Compiler}{c:SearchSetting}
 {b:Block}{m:Modifier}{r:Regex.Reading}
 (hs:C.Sound lists)(hshort:C.Short)(hset:c.set=C.ruleSet)
 (h:Carries C lists j m none (some r.pattern))(hm:m.Single)(hl:m.flags.linear=false)
 (hre:Regex.read t s=.ok r)(hp:r.pattern.root.simple)
 (hf:(C.string j).flags.fixedOffset=false)
 (hok:∀x,(j,x)∈registered lists→∀i,Ends b x i→(hitsFor c b (j,x) i).1=.success):
 Finds c b lists j (r.pattern.root.Occurs (b.text (C.string j))):=by
 cases ht:r.pattern.root.literal? with
 | some _=>exact finds_text hs hshort hset hm h ht (Node.literal_nonempty (by rintro hro;rw[hro]at hp;cases hp) ht) hf
 | none=>
  have hr:=Regex.read_readable hre
  refine finds_code hs hshort hset hm h hp ht hr.digitMasks (fun a a' hst hst'=>?_) hok
  refine runs_of_stands ?_ hst hst' hp (hr.inOrder _)
  rw[hset]
  exact (h.flag_eq StringFlags.linear).trans hl
end Rule.Compiler
lemma Regex.Pattern.split_eq_self (h:p.split.2=none):p.split.1=p:=by
 unfold split at h⊢
 grind
namespace Rule
open Compiler
variable {c:Compiler}{m:Modifier}
lemma Modifier.Reads.unique {q:Pattern}
 (hp:m.Reads s t p)(hq:m.Reads s t q):p=q:=by
 unfold Reads at hp hq
 grind
lemma Compiler.Carries.later {C:Compiler}
 {t:Option Bytes}{p:Option Pattern}(h:Carries c lists j m t p)
 (hs:c.Sound lists)(hsi:c.strings.size=j+1)(hl:c.Reaches C):
 ∃lists',C.Sound lists'∧Carries C lists' j m t p∧(C.string j).flags.chainPart=(c.string j).flags.chainPart∧
  (j+1<C.strings.size→(C.string (j+1)).link=none):=by
 have hg:=hl.grows
 obtain⟨lists',he⟩:=hg.extends hs
 refine⟨lists',he.sound,h.extends he,?_,hsi▸hg.first⟩
 have hp:(C.string j).flags.settled.chainPart=(c.string j).flags.settled.chainPart:=by rw[(hg.noted j h.lt).flags]
 exact hp
lemma declareString_carries {c1 C:Compiler}(hc:c.Started){n:String}
 (hde:(declareString n m t).run c=(.ok (),c1))
 (hl:c1.Reaches C)(hm:(m.flags.hexadecimal||m.flags.regexp))
 (hre:m.Reads c.setting.strict t p)(hw:p.split.2=none):
 ∃lists,C.Sound lists∧Carries C lists c.strings.size ((m.declared n).forPattern p) none (some p)∧
  (C.string c.strings.size).flags.chainPart=m.flags.chainPart∧
  (c.strings.size+1<C.strings.size→(C.string (c.strings.size+1)).link=none):=by
 obtain⟨lists,hsn⟩:=hc.sound
 obtain⟨q,lists1,hr,he,hsi,hchs,hsg⟩:=declareString_chains hde hm hsn
 obtain rfl:=hre.unique hr
 have hp:p.parts (t.size+1) none=[⟨none,p.split.1,true⟩]:=by
  rw[Pattern.parts,hw]
  rfl
 rw[hp]at hsi hchs
 rw[Pattern.split_eq_self hw]at hchs
 rw[←hsg hw]
 exact (hchs 0 _ rfl).carries.later he.sound hsi hl

/-- A scan of a block that a run can read reports a regular expression of characters, dots, alternatives and unbounded
repetitions at just the offsets at which it matches, unless it is looked for at one offset only. -/
theorem scan_offsets_iff_occurs {c c₁ C:Compiler} (hc:c.Started) {name:String} {m:Modifier}
 {text:Bytes} (hdeclare:(declareString name m text).run c = (.ok (),c₁))
 (hlater:c₁.Reaches C) {ascii noCase dotAll hidden:Bool}
 (hm:m.flags = { StringFlags.none with
  regexp := true,ascii := ascii,noCase := noCase,dotAll := dotAll,hidden := hidden })
 {r:Regex.Reading} (hread:Regex.read text c.setting.strict = .ok r)
 (hsimple:r.pattern.root.simple=true) (hwhole:r.pattern.split.2=none)
 (hfixed:(C.string c.strings.size).flags.fixedOffset = false) (hshort:C.Short)
 {x:Scanner} (hset:x.set=C.ruleSet) (hfresh:x.findings = Findings.empty x.set)
 (hfast:x.flags.fast=false) (cfg:Configuration) (listener:Listener) {data:Bytes}
 (hdata:data.size ≤ 4096)
 (hok:(x.scan cfg (some listener) (Source.ofBytes data)).code = .success)
 {e:Event} (he:e ∈ (x.scan cfg (some listener) (Source.ofBytes data)).events)
 {i:Nat} {found:Scan.RuleMatches} (hreport:e.report? = some (i,found))
 {rule:PatternScan.Rule} (hrule:x.set.rules[i]? = some rule)
 (hmem:c.strings.size ∈ rule.strings) (o:Nat) :
 (∃ l,(c.strings.size,l) ∈ found ∧ l.Has o) ↔
  o < data.size ∧ ∃ e,o ≤ e ∧ r.pattern.root.Occurs ⟨data,false,⟨noCase,dotAll⟩⟩ o e := by
 obtain⟨lists,hs,hcarries,hpart,hnext⟩:=declareString_carries hc hdeclare hlater
  (by rw[hm];rfl) (by rw[Modifier.Reads,hm];exact⟨r,hread,rfl⟩) hwhole
 have hsgl:((m.declared name).forPattern r.pattern).Single:=by
  constructor<;>simp only[Modifier.declared,Modifier.forPattern,hm]
  ·exact Bool.or_true _
  ·rfl
  ·rfl
  ·rfl
  ·rfl
  ·exact⟨rfl,rfl⟩
 have hsteps:((m.declared name).forPattern r.pattern).flags.linear=false:=by
  simp only[Modifier.declared,Modifier.forPattern,hm,(Regex.read_built hread).2.1]
  rfl
 have htext:(⟨0,data⟩:Block).text (C.string c.strings.size)=⟨data,false,⟨noCase,dotAll⟩⟩:=by
  rw[Block.text,hcarries.flag_eq StringFlags.noCase,hcarries.flag_eq StringFlags.dotAll]
  simp only[Modifier.declared,Modifier.forPattern,hm]
  rw[show StringFlags.none.hexadecimal=false from rfl,Bool.or_false]
 have hlone:Scan.Lone (C.string c.strings.size):=by
  refine⟨hpart.trans ?_,(hcarries.flag_eq StringFlags.fullWord).trans ?_⟩ <;>
   simp only[Modifier.declared,Modifier.forPattern,hm]<;>rfl
 obtain⟨p,hsearch,hreps⟩:=x.scan_ofBytes cfg listener hok
 obtain⟨hsized,hempty,hloud⟩:=x.outset_ofBytes hfresh data c.strings.size
 have heven:(⟨0,data⟩:Block).Even:=by
  change (0:Int64).toInt+_<_
  simp only[Int64.toInt_zero]
  omega
 obtain⟨hcodes,hhas⟩:=search_has hs hshort (c:=x.searchSetting cfg listener) hset hfast
  hcarries.lt hlone hnext heven (S:=Finset.range data.size)
  (by rw[Finset.card_range];exact hdata.trans_lt (by decide))
  (fun y _ k _ h hh=>Finset.mem_range.mpr ((Scan.hits_inside _ _).2 h hh).2) hsized hempty hloud hsearch
 have hfinds:=hcarries.finds_regexp hs hshort hset hsgl hsteps hread hsimple hfixed hcodes
 rw[htext]at hfinds
 obtain⟨_,hrule',rfl⟩:=hreps e he i found hreport
 cases hrule.symm.trans hrule'
 have hidx:(x.set.string c.strings.size).index=c.strings.size:=by
  rw[hset]
  exact hs.index _ hcarries.lt
 rw[x.has_ruleMatches hidx hmem,hhas]
 constructor
 ·rintro⟨y,hy,k,hends,h,hh,rfl⟩
  obtain⟨hoff,hocc⟩:=hfinds.sound y hy k hends h hh
  exact⟨hoff,_,Nat.le_add_right _ _,hocc⟩
 ·rintro⟨ho,stop,-,hocc⟩
  obtain⟨-,hins⟩:=Node.Occurs.le rfl hsimple hocc
  have hlim:Limits.regexInput=4096:=rfl
  have hwith:stop-o≤data.size-o:=hins
  exact hfinds.complete o stop ho hocc (by omega)
lemma run_eq_ok {a:Action Unit}(h:(a.run c).1.isOk):a.run c=(.ok (),(a.run c).2):=by
 refine Prod.ext ?_ rfl
 cases hr:(a.run c).1 with
 | ok=>rfl
 | error=>
  rw[hr]at h
  cases h
lemma short_of_one (hsi:c.strings.size=1)(h:(c.string 0).extent<65536):
 c.Short:=by
 intro i hi
 obtain rfl:i=0:=by omega
 exact h
def ruleOpened:Compiler:=
 { rules:=#[{name:="r",space:=0,hidden:=false,everywhere:=false,stringCount:=1}]
   rule:=some 0 }
lemma started_ruleOpened:ruleOpened.Started:=⟨{},.single (.aside _ rfl rfl rfl)⟩
def branchesDeclared:Compiler:=((declareString "$a" {flags:={StringFlags.none with regexp:=true,noCase:=true}}
 ⟨#[97,40,98,124,99,41,43,100]⟩).run ruleOpened).2
def branchesRead:Regex.Reading:=
 ⟨⟨.cat [.literal 97 true,.plus true (.alt (.cat [.literal 98 true]) (.cat [.literal 99 true])),
  .literal 100 true],{Regex.Traits.none with greedy:=true}⟩,false⟩
lemma read_branches:Regex.read ⟨#[97,40,98,124,99,41,43,100]⟩ false=.ok branchesRead:=by with_unfolding_all rfl
theorem scan_offsets_iff_occurs_branches :
 let x:=Scanner.create branchesDeclared.ruleSet
 let data:Bytes:=⟨#[97,65,98,67,68,100,97,99,100]⟩
 let r:=x.scan {} (some default) (Source.ofBytes data)
 r.code=.success∧∃ e∈r.events,∃ found,e.report?=some (0,found)∧
  ∀ o,(∃ l,(0,l)∈found∧l.Has o)↔o < data.size∧∃ e,o ≤ e∧
   branchesRead.pattern.root.Occurs ⟨data,false,⟨true,false⟩⟩ o e:=by
 intro x data r
 have hok:r.code=.success:=by decide +kernel
 have hreps:∃e∈r.events.toList,e.report?.map (·.1)=some 0:=by decide +kernel
 obtain⟨e,he,hreport⟩:=hreps
 obtain⟨⟨_,found⟩,hfnd,rfl⟩:=Option.map_eq_some_iff.mp hreport
 have he:=Array.mem_toList_iff.mp he
 refine⟨hok,e,he,found,hfnd,fun o=>?_⟩
 have hdeclare:_=(_,branchesDeclared):=run_eq_ok (by decide +kernel)
 have hrule:x.set.rules[0]?.map (·.strings)=some [0]:=by decide +kernel
 obtain⟨rule,hrule,hstrs⟩:=Option.map_eq_some_iff.mp hrule
 exact scan_offsets_iff_occurs started_ruleOpened hdeclare .refl rfl read_branches (by decide)
  (by decide) (by decide +kernel) (short_of_one (by decide +kernel) (by decide +kernel)) rfl rfl
  (by decide) _ _ (by decide) hok he hfnd hrule (by rw[hstrs];decide) o
def textDeclared:Compiler:=((declareString "$a"
 {flags:={StringFlags.none with regexp:=true}} ⟨#[97,98,99]⟩).run ruleOpened).2
def textUsed:Compiler:=((perform .foundAt [.literal (.name "$a"),.none,
 .expression {code:=.integer 5,kind:=.integer,word:=5}] []).run textDeclared).2

/-- A text that is looked for at one offset only is not reported at others. -/
theorem scan_offsets_fixed :
 let data:Bytes:=⟨#[97,98,99,120,120,97,98,99]⟩
 let r:=(Scanner.create textUsed.ruleSet).scan {} (some default) (Source.ofBytes data)
 let abc:Node:=.cat [.literal 97 true,.literal 98 true,.literal 99 true]
 textDeclared.Reaches textUsed∧
  Regex.read ⟨#[97,98,99]⟩ false=.ok ⟨⟨abc,Regex.Traits.none⟩,false⟩∧
  r.code=.success∧(∃ e∈r.events,∃ l,e.report?=some (0,[(0,l)])∧¬ l.Has 0)∧
  abc.Occurs ⟨data,false,⟨false,false⟩⟩ 0 3:=by
 intro data r abc
 refine⟨.single (.action ..),by with_unfolding_all rfl,by decide +kernel,?_,?_⟩
 ·have hreps:∃e∈r.events.toList,e.report?.map (fun y=>(y.1,y.2.map fun z=>
   (z.1,z.2.toList.map (·.offset))))=some (0,[(0,[5])]):=by decide +kernel
  obtain⟨e,he,hreport⟩:=hreps
  obtain⟨⟨i,found⟩,hfnd,hlist⟩:=Option.map_eq_some_iff.mp hreport
  obtain⟨rfl,hlist⟩:=Prod.mk.inj hlist
  obtain⟨⟨j,l⟩,rfl,hl⟩:=List.map_eq_singleton_iff.mp hlist
  obtain⟨rfl,hoffs⟩:=Prod.mk.inj hl
  refine⟨e,Array.mem_toList_iff.mp he,l,hfnd,?_⟩
  rintro⟨m,hm,hzero⟩
  have hmem:m.offset∈l.toList.map (·.offset):=List.mem_map_of_mem hm
  rw[hoffs,hzero]at hmem
  cases List.mem_singleton.mp hmem
 ·have htext:abc.literal? = some ⟨#[97,98,99]⟩:=rfl
  refine (Node.occurs_text rfl htext 0 3).mpr ⟨rfl,[97,98,99],by decide,?_⟩
  exact List.forall₂_same.mpr fun _ _=>.inl rfl
end Rule
end PatternScan
