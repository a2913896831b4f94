import PatternScan.Proofs.Automaton.Search
import PatternScan.Proofs.Rule.History
import PatternScan.Proofs.Scan.Verification
/-! As long as the matches of some strings can be taken, a search takes all of them, in order. -/
open PatternScan.Automaton.Trie PatternScan.Automaton PatternScan.Bytes PatternScan.Scan.Findings PatternScan.Scan.Progress
namespace PatternScan.Scan
variable {lo hi n i j:Nat}{f:Findings}{s:RuleString}{b:Block}
/-- Every string has its own number, and is chained to the one before it if to any. -/
structure InOrder (strings:Array RuleString):Prop where
 index:∀i<strings.size,(strings.getD i default).index=i
 link:∀i<strings.size,∀l,(strings.getD i default).link=some l→
  l.previous+1=i∧(strings.getD l.previous default).flags.chainPart=true

/-- The numbers from one to another, where no chain comes in from behind. -/
structure Closed (strings:Array RuleString)(lo hi:Nat):Prop where
 le:lo≤hi
 next:hi+1<strings.size→(strings.getD (hi+1) default).link=none
namespace Findings
/-- The findings about the strings between two numbers are the same. -/
structure Apart (lo hi:Nat)(f f':Findings):Prop where
 confirmed:∀i,lo ≤ i→i≤hi→f'.of i=f.of i
 pending:∀i,lo ≤ i→i≤hi→f'.waiting i=f.waiting i
 silenced:∀i,lo ≤ i→i≤hi→f'.silenced.getD i false=f.silenced.getD i false
structure Sized (n:Nat)(f:Findings):Prop where
 confirmed:f.confirmed.size=n
 pending:f.pending.size=n
 silenced:f.silenced.size=n
variable {f' f'':Findings}
lemma Apart.refl (lo hi:Nat)(f:Findings):Apart lo hi f f:=
 ⟨fun _ _ _=>rfl,fun _ _ _=>rfl,fun _ _ _=>rfl⟩
lemma Apart.trans (h:Apart lo hi f f')(h':Apart lo hi f' f''):Apart lo hi f f'':=
 ⟨fun i h1 h2=>(h'.confirmed i h1 h2).trans (h.confirmed i h1 h2),
  fun i h1 h2=>(h'.pending i h1 h2).trans (h.pending i h1 h2),
  fun i h1 h2=>(h'.silenced i h1 h2).trans (h.silenced i h1 h2)⟩
end Findings
def Outside (lo hi i:Nat):Prop:=i<lo∨hi < i
lemma Outside.ne (h:Outside lo hi i)(h1:lo≤j)(h2:j≤hi):i≠j:=by rcases h with h|h<;>omega
lemma outside_of_mem_linksFrom {st:Array RuleString}(h:InOrder st)
 (hc:Closed st lo hi)(a:Nat):∀j,j<st.size→Outside lo hi j→
  ∀l∈linksFrom st a j,Outside lo hi l.previous∧l.previous<st.size:=by
 induction a with
 | zero=>exact fun j _ _=>nofun
 | succ a ih=>
  intro j hj ho
  rw[linksFrom]
  split
  ·exact nofun
  next l hl=>
  have hp:=(h.link j hj l hl).1
  have ho':Outside lo hi l.previous:=by
   rcases ho with ho|ho
   ·exact .inl (by omega)
   ·right
    by_contra hle
    obtain rfl:j=hi+1:=by omega
    rw[hc.next hj]at hl
    cases hl
  exact List.forall_mem_cons.2 ⟨⟨ho',by omega⟩,ih l.previous (by omega) ho'⟩
namespace Findings
def Steps (lo hi n:Nat)(f f':Findings):Prop:=f.Sized n→f'.Sized n∧Apart lo hi f f'
lemma Steps.refl (lo hi n:Nat)(f:Findings):Steps lo hi n f f:=fun h=>⟨h,.refl lo hi f⟩
lemma Steps.trans {f' f'':Findings}(h:Steps lo hi n f f')(h':Steps lo hi n f' f''):Steps lo hi n f f'':=fun hn=>
 ⟨(h' (h hn).1).1,(h hn).2.trans (h' (h hn).1).2⟩
lemma insertInto_size (lists:Array MatchList)(i:Nat)(m:Match)(r:Bool):
 (insertInto lists i m r).2.size=lists.size:=by
 unfold insertInto
 split
 ·rfl
 ·exact Array.size_modify
lemma insertInto_getD_ne (lists:Array MatchList)(h:i≠j)(m:Match)
 (r:Bool):(insertInto lists i m r).2.getD j .empty=lists.getD j .empty:=
 (insertInto_cases lists i j m r).resolve_right fun hij=>h hij.1
lemma confirm_steps (hs:Outside lo hi s.index)(m:Match)(r:Bool):
 Steps lo hi n f (f.confirm s m r).2:=by
 refine fun h=>⟨⟨?_,h.pending,h.silenced⟩,⟨fun i h1 h2=>?_,fun _ _ _=>rfl,fun _ _ _=>rfl⟩⟩
 ·exact (insertInto_size ..).trans h.confirmed
 ·exact insertInto_getD_ne _ (hs.ne h1 h2) _ _
lemma wait_steps {st:Nat}(hs:Outside lo hi st)(m:Match):Steps lo hi n f (f.wait st m).2:=by
 refine fun h=>⟨⟨h.confirmed,?_,h.silenced⟩,⟨fun _ _ _=>rfl,fun i h1 h2=>?_,fun _ _ _=>rfl⟩⟩
 ·exact (insertInto_size ..).trans h.pending
 ·exact insertInto_getD_ne _ (hs.ne h1 h2) _ _
lemma narrow_steps {J:Nat→Prop}(hJ:∀i,J i→Outside lo hi i){lists:Array MatchList}
 (h:Narrows J f.pending lists):Steps lo hi n f {f with pending:=lists}:=
 fun hn=>⟨⟨hn.confirmed,h.size.trans hn.pending,hn.silenced⟩,⟨fun _ _ _=>rfl,
  fun i h1 h2=>h.same i fun hi=>(hJ i hi).ne h1 h2 rfl,fun _ _ _=>rfl⟩⟩
end Findings
section
variable {set:RuleSet}{room:Int}
lemma accept_steps (h:InOrder set.strings)(hc:Closed set.strings lo hi)
 (hj:j<set.strings.size)(ho:Outside lo hi j)(f:Findings)
 (o ln:Nat)(w:Bool)(key:UInt8):
 f.Steps lo hi n (accept set room (set.string j) b o ln w key f).2:=by
 have hid:(set.string j).index=j:=h.index j hj
 have hli:=outside_of_mem_linksFrom h hc set.strings.size j hj ho
 have hch:∀i,Chained set (set.string j) i→Outside lo hi i:=by
  rintro i ⟨l,hl,hi⟩
  have hm:l∈linksFrom set.strings set.strings.size j:=by
   rcases hl with hl|hl
   ·obtain⟨a,ha⟩:∃a,set.strings.size=a+1:=⟨set.strings.size-1,by omega⟩
    rw[ha,linksFrom,show (set.strings.getD j default).link=some l from hl]
    exact List.mem_cons_self
   ·exact hid▸hl
  obtain⟨hp,hlt⟩:=hli l hm
  rcases hi with rfl|rfl
  ·exact hp
  ·exact (h.index _ hlt).symm▸hp
 have hk:Keeps set room (set.string j) (found room (set.string j) b o ln key) (f.Steps lo hi n):=
  ⟨fun hf hn=>hf.trans (narrow_steps hch hn),fun hf=>hf.trans (wait_steps (hid.symm▸ho) _),
   fun hf=>hf.trans (confirm_steps (hid.symm▸ho) _ _),
   fun _ hf hl _=>hf.trans (confirm_steps (hch _ ⟨_,.inr hl,.inr rfl⟩) _ _)⟩
 exact (hk.accept w (.refl lo hi n f)).2
end
namespace Progress
variable {c:SearchSetting}
lemma verify_steps (h:InOrder c.set.strings)(hc:Closed c.set.strings lo hi)
 {r:Registration}(hr:r.string<c.set.strings.size)
 (ho:Outside lo hi r.string)(p:Progress){o:Nat}
 (he:o+r.backtrack≤b.data.size):
 p.findings.Steps lo hi n (p.verify c b r o).2.findings:=by
 have hid:(c.set.string r.string).index=r.string:=h.index _ hr
 have ha:Accepts c.set c.room b (c.set.string r.string) (Steps lo hi n):=
  ⟨.refl lo hi n,.trans,fun f o length wide key _ _=>accept_steps h hc hr ho f o length wide key⟩
 refine (verify_accepts ha (fun f hn=>⟨⟨hn.confirmed,hn.pending,?_⟩,
  ⟨fun _ _ _=>rfl,fun _ _ _=>rfl,fun i h1 h2=>?_⟩⟩) he p).findings
 ·exact Array.size_setIfInBounds.trans hn.silenced
 ·rw[hid]
  exact getD_setIfInBounds_ne _ _ (ho.ne h1 h2) _
end Progress
end PatternScan.Scan
namespace PatternScan.Scan
open List
variable {lo hi:Nat}{hs:List Hit}(c:SearchSetting)(b:Block)
def Hit.listed (h:Hit):Match:=
 found c.room (c.set.string h.string) b h.offset h.length h.key
lemma Hit.take_eq {h:Hit}(hch:(c.set.string h.string).flags.chainPart=false)(f:Findings):
 h.take c b f=if ((c.set.string h.string).flags.fullWord &&
  !standsAlone b.data h.offset h.length h.wide)=true then (.success,f)
  else f.confirm (c.set.string h.string) (h.listed c b) (c.set.string h.string).flags.greedy:=by
 rw[take,accept,hch]
 rfl
variable {c b}
variable (c b) in
/-- Taking matches of the strings from one number to another, while other strings are searched too. -/
inductive Taken (lo hi:Nat):Findings→List Hit→Findings→Prop
 | done (f:Findings):Taken lo hi f [] f
 | take {f f' f'':Findings}{h:Hit}{hs:List Hit}(hh:h.take c b f=(.success,f'))
  (rest:Taken lo hi f' hs f''):Taken lo hi f (h::hs) f''
 | aside {f f' f'':Findings}{hs:List Hit}(same:f.Steps lo hi c.set.strings.size f')
  (rest:Taken lo hi f' hs f''):Taken lo hi f hs f''
lemma Taken.trans {f f' f'':Findings}{hs':List Hit}
 (h:Taken c b lo hi f hs f')(h':Taken c b lo hi f' hs' f''):
 Taken c b lo hi f (hs++hs') f'':=by
 induction h with
 | done=>exact h'
 | take hh _ ih=>exact .take hh (ih h')
 | aside same _ ih=>exact .aside same (ih h')
lemma Taken.of_takeAll:∀{f f':Findings},takeAll c b hs f=(.success,f')→Taken c b lo hi f hs f':=by
 induction hs with
 | nil=>
  rintro f f' ⟨⟩
  exact .done f
 | cons h _ ih=>
  intro f f' ht
  rw[takeAll]at ht
  split at ht
  ·next f1 hf1=>exact .take hf1 (ih ht)
  ·next hne=>exact absurd ht (hne f')
lemma takeAll_silenced (hs:List Hit):∀f,(takeAll c b hs f).2.silenced=f.silenced:=by
 induction hs with
 | nil=>exact fun _=>rfl
 | cons h hs ih=>
  intro f
  have hst:(h.take c b f).2.silenced=f.silenced:=(accept_verifies ..).findings
  rw[takeAll]
  grind
namespace Progress
def Silent (p:Progress)(i:Nat):Prop:=p.findings.silenced.getD i false=true

/-- What holds of the findings as long as matches of a kind can be taken. -/
structure Open (c:SearchSetting)(b:Block)(lo hi:Nat)(K:Hit→Prop)(P:Findings→Prop):
 Prop where
 sized:∀f,P f→f.Sized c.set.strings.size
 aside:∀f f',f.Steps lo hi c.set.strings.size f'→P f→P f'
 take:∀h,K h→∀f,P f→(h.take c b f).1=.success∧P (h.take c b f).2
variable {K:Hit→Prop}{P:Findings→Prop}
lemma Open.takeAll (ho:Open c b lo hi K P)(hs:List Hit):∀f,(∀x∈hs,K x)→P f→
  (Scan.takeAll c b hs f).1=.success∧P (Scan.takeAll c b hs f).2:=by
 induction hs with
 | nil=>exact fun f _ hf=>⟨rfl,hf⟩
 | cons x hs ih=>
  intro f hm hf
  obtain⟨hok,hf'⟩:=ho.take x (hm x mem_cons_self) f hf
  rw[Scan.takeAll]
  grind
lemma Open.verify (ho:Open c b lo hi K P)(hf:c.fast=false){p p':Progress}{r:Registration}{o:Nat}
 (hid:(c.set.string r.string).index=r.string)(hK:∀h∈(hits c b r o).2,K h)
 (hP:P p.findings)(hl:¬p.Silent r.string)
 (hv:p.verify c b r o=(.success,p')):
 (hits c b r o).1=.success∧Scan.takeAll c b (hits c b r o).2 p.findings=(.success,p'.findings)∧
  P p'.findings∧p'.findings.silenced=p.findings.silenced:=by
 have hsk:p.skips c (c.set.string r.string)=false:=by
  simp only[skips,hf,hid,Bool.false_and,Bool.or_false]
  exact Bool.eq_false_iff.2 hl
 obtain⟨hok,ht⟩:=ho.takeAll (hits c b r o).2 p.findings hK hP
 have hsi:=takeAll_silenced (c:=c) (b:=b) (hits c b r o).2 p.findings
 have hfu:=(hits_inside (c:=c) (b:=b) r o).1
 rw[verify_eq,if_neg (by simp[hsk]),verified]at hv
 grind
def hitsOf (c:SearchSetting)(b:Block)(lo hi:Nat)(call:Nat×Nat):List Hit:=
 let r:=c.set.table.pool.getD call.1 default
 if lo≤r.string∧r.string≤hi then (hits c b r call.2).2 else []
lemma Open.verifyCalls (ho:Open c b lo hi K P)(hf:c.fast=false)(h:InOrder c.set.strings)
 (hc:Closed c.set.strings lo hi)(cl:List (Nat×Nat))
 (hca:∀x∈cl,(c.set.table.pool.getD x.1 default).string<c.set.strings.size∧
  x.2+(c.set.table.pool.getD x.1 default).backtrack≤b.data.size)
 (hK:∀x∈cl,∀h∈hitsOf c b lo hi x,K h):∀p p':Progress,P p.findings→(∀i,lo ≤ i → i≤hi→¬p.Silent i)→
 Progress.verifyCalls c b cl p=(.success,p')→
 Taken c b lo hi p.findings (cl.flatMap (hitsOf c b lo hi)) p'.findings∧
 ∀x∈cl,lo≤(c.set.table.pool.getD x.1 default).string→(c.set.table.pool.getD x.1 default).string≤hi→
  (hits c b (c.set.table.pool.getD x.1 default) x.2).1=.success:=by
 induction cl with
 | nil=>
  rintro p p' - - ⟨⟩
  exact⟨.done _,nofun⟩
 | cons x _ ih=>
  intro p p' hP hl hv
  obtain⟨hr,he⟩:=hca x mem_cons_self
  have hKx:=hK x mem_cons_self
  rw[Progress.verifyCalls]at hv
  split at hv
  ·next p1 hp1=>
   replace ih:=ih (fun y hy=>hca y (mem_cons_of_mem _ hy)) (fun y hy=>hK y (mem_cons_of_mem _ hy)) p1 p'
   rw[hitsOf]at hKx
   rw[flatMap_cons,hitsOf]
   split at hKx
   ·next hin=>
    obtain⟨hcd,hta,hP1,hsi⟩:=ho.verify hf (h.index _ hr) hKx hP (hl _ hin.1 hin.2) hp1
    obtain⟨ht,hco⟩:=ih hP1 (fun i hlo hhi=>by rw[Silent,hsi];exact hl i hlo hhi) hv
    rw[if_pos hin]
    refine⟨(Taken.of_takeAll hta).trans ht,?_⟩
    rintro y (_|⟨_,hy⟩) hlo hhi
    ·exact hcd
    ·exact hco y hy hlo hhi
   next hou=>
   have hst:=verify_steps h hc hr (by unfold Outside;omega) p he (n:=c.set.strings.size)
   rw[hp1]at hst
   obtain⟨ht,hco⟩:=ih (ho.aside _ _ hst hP) (fun i hlo hhi=>by
    rw[Silent,(hst (ho.sized _ hP)).2.silenced i hlo hhi]
    exact hl i hlo hhi) hv
   rw[if_neg hou]
   refine⟨.aside hst ht,?_⟩
   grind
  ·next hne=>exact absurd hv (hne p')
lemma search_reads {p p':Progress}(h:p.search c b=(.success,p')):
 ∃sl p1,read c b 0 0 none p=(.success,sl,p1) ∧ p1.findings=p'.findings:=by
 unfold search at h
 split at h
 ·next string p1 hr=>
  refine⟨_,_,hr,?_⟩
  dsimp only at h
  split_ifs at h <;> cases h <;> rfl
 ·next hr=>
  cases h
  exact⟨_,_,hr,rfl⟩
end Progress
end PatternScan.Scan
namespace PatternScan.Rule.Compiler
open List
open Scan (Hit SearchSetting Block Findings Progress Taken Closed hits)
variable {x:Nat×AtomItem}{b:Block}{i k:Nat}{p p':Progress}
/-- No text of a string takes so many bytes that a distance in it wraps around. -/
def Short (c:Compiler):Prop:=∀i<c.strings.size,(c.string i).extent<65536
variable {C:Compiler}{lists:List (Nat×List AtomItem)}
section
variable (hs:C.Sound lists)(hsh:C.Short)
include hs
lemma Sound.inOrder:Scan.InOrder C.ruleSet.strings:=⟨hs.index,hs.link⟩
include hsh
lemma Sound.distance_eq (hx:x∈registered lists):
 distance x.2=x.2.atom.length+x.2.backtrack:=by
 obtain⟨hlt,hf⟩:=hs.item x hx
 have ht:=hsh x.1 hlt
 have hfo:Limits.atomLength=4:=rfl
 have ha:=hf.short
 refine Nat.mod_eq_of_lt ?_
 rcases hf.near with hn|hn<;>omega
lemma Sound.distances:Distances (registered lists):=by
 constructor
 ·intro x hx he
  rw[hs.distance_eq hsh hx,he,(hs.item x hx).2.empty he]
  rfl
 ·intro _ x hx hne
  have hp:=length_pos_iff.2 hne
  rw[hs.distance_eq hsh hx]
  omega
end
def hitsFor (c:SearchSetting)(b:Block)(x:Nat×AtomItem)(i:Nat):ResultCode×List Hit:=
 hits c b ⟨x.1,distance x.2,x.2.entry,none⟩ (i-distance x.2)
def hitsAt (c:SearchSetting)(b:Block)(lists:List (Nat×List AtomItem))(lo hi i:Nat):List Hit:=
 (callsAt (registered lists) c.set.table.pool b.data i).flatMap (hitsOf c b lo hi)

/-- An atom of a string stands in a block before a position. -/
structure Ends (b:Block)(x:AtomItem)(i:Nat):Prop where
 le:i≤b.data.size
 suffix:x.atom.values <:+ b.data.list.take i
 distance:distance x ≤ i
lemma ends_of_prefix {x:AtomItem}{m:Nat}(hm:m≤b.data.size)
 (h:x.atom.values <+: b.data.list.drop m)(hdi:distance x ≤ m+x.atom.length):
 Ends b x (m+x.atom.length):=by
 have hv:x.atom.values.length=x.atom.length:=length_map _
 have hl:=h.length_le
 rw[length_drop,length_list]at hl
 refine⟨by omega,?_,hdi⟩
 rw[take_add,←hv,←prefix_iff_eq_take.1 h]
 exact suffix_append _ _
lemma Ends.values_prefix {x:AtomItem}(h:Ends b x i):
 x.atom.length ≤ i∧x.atom.values <+: b.data.list.drop (i-x.atom.length):=by
 have hv:x.atom.values.length=x.atom.length:=length_map _
 have hl:=h.suffix.length_le
 rw[length_take]at hl
 refine⟨by omega,?_⟩
 have hsu:=suffix_iff_eq_drop.1 h.suffix
 rw[length_take,length_list,hv,min_eq_left h.le,drop_take]at hsu
 rw[hsu]
 exact take_prefix _ _
section
variable {c:SearchSetting}{lo hi:Nat}(hs:C.Sound lists)(hsh:C.Short)(hset:c.set=C.ruleSet)
include hs hsh hset
lemma hits_registered (hx:(registered lists)[k]?=some x)
 (i:Nat):hits c b (c.set.table.pool.getD k default) (i-distance x.2)=
  hitsFor c b x i∧(c.set.table.pool.getD k default).string=x.1:=by
 have ht:c.set.table=(ofLists lists).table:=by rw[hset,←hs.trie];rfl
 obtain⟨hst,hb,he⟩:=pool_registered (hs.distances hsh) ht hx
 refine⟨?_,hst⟩
 rw[hitsFor,hits,hits,hst,hb,he]
lemma mem_callsAt_iff (hle:i≤b.data.size){o:Nat}:
 (k,o)∈callsAt (registered lists) c.set.table.pool b.data i↔
  ∃x,(registered lists)[k]?=some x∧Ends b x.2 i∧o=i-distance x.2:=by
 have ht:c.set.table=(ofLists lists).table:=by rw[hset,←hs.trie];rfl
 rw[mem_callsAt (hs.distances hsh) ht]
 constructor
 ·rintro⟨x,hx,hsu,hdi,rfl⟩
  exact⟨x,hx,⟨hle,hsu,hdi⟩,rfl⟩
 ·rintro⟨x,hx,he,rfl⟩
  exact⟨x,hx,he.suffix,he.distance,rfl⟩
lemma mem_hitsAt (hle:i≤b.data.size){h:Hit}:h∈hitsAt c b lists lo hi i↔
 ∃x∈registered lists,(lo≤x.1∧x.1≤hi)∧Ends b x.2 i∧h∈(hitsFor c b x i).2:=by
 rw[hitsAt,mem_flatMap]
 constructor
 ·rintro⟨⟨k,o⟩,hk,hh⟩
  obtain⟨x,hx,he,rfl⟩:=(mem_callsAt_iff hs hsh hset hle).1 hk
  obtain⟨hhi,hst⟩:=hits_registered hs hsh hset hx i
  rw[hitsOf,hhi,hst]at hh
  grind
 rintro⟨x,hx,hin,he,hh⟩
 obtain⟨k,hk⟩:=getElem?_of_mem hx
 obtain⟨hhi,hst⟩:=hits_registered hs hsh hset hk i
 refine⟨(k,i-distance x.2),(mem_callsAt_iff hs hsh hset hle).2 ⟨x,hk,he,rfl⟩,?_⟩
 rw[hitsOf,hhi,hst,if_pos hin]
 exact hh
lemma search_calls (hse:p.search c b=(.success,p')):
 let calls:=(range (b.data.size+1)).flatMap (callsAt (registered lists) c.set.table.pool b.data)
 (∃p1,verifyCalls c b calls p=(.success,p1)∧p1.findings=p'.findings)∧
  ∀x∈calls,(c.set.table.pool.getD x.1 default).string<c.set.strings.size∧
   x.2+(c.set.table.pool.getD x.1 default).backtrack≤b.data.size:=by
 have ht:c.set.table=(ofLists lists).table:=by rw[hset,←hs.trie];rfl
 obtain⟨sl,p1,hr,hp1⟩:=search_reads hse
 have hc:=read_eq (b:=b) (hs.distances hsh) ht (fun x hx=>(hs.item x hx).2.short) none p
 rw[hr]at hc
 refine⟨⟨p1,hc.symm,hp1⟩,?_⟩
 rintro⟨k,o⟩ hk
 obtain⟨i,hi,hk⟩:=mem_flatMap.1 hk
 have hle:i≤b.data.size:=Nat.lt_succ_iff.1 (mem_range.1 hi)
 obtain⟨x,hx,he,rfl⟩:=(mem_callsAt_iff hs hsh hset hle).1 hk
 obtain⟨hst,hb,-⟩:=pool_registered (hs.distances hsh) ht hx
 have hlt:=(hs.item x (mem_of_getElem? hx)).1
 have hdi:=he.distance
 rw[hst,hb,hset]
 exact⟨hlt,by omega⟩

/-- A search takes what all atoms lead to, in the order in which they end, and none of them ends with
an error. -/
lemma search_taken (hf:c.fast=false)(hc:Closed c.set.strings lo hi){K:Hit→Prop}
 {P:Findings→Prop}(ho:Open c b lo hi K P)
 (hK:∀x∈registered lists,lo≤x.1→x.1≤hi→∀i,Ends b x.2 i→
  ∀h∈(hitsFor c b x i).2,K h)(hP:P p.findings)
 (hl:∀i,lo ≤ i→i≤hi→¬p.Silent i)(hse:p.search c b=(.success,p')):
 Taken c b lo hi p.findings ((range (b.data.size+1)).flatMap (hitsAt c b lists lo hi)) p'.findings∧
 ∀x∈registered lists,lo≤x.1→x.1≤hi→∀i,Ends b x.2 i→(hitsFor c b x i).1=.success:=by
 obtain⟨⟨p1,hca,hp1⟩,hm⟩:=search_calls hs hsh hset hse
 obtain⟨ht,hco⟩:=ho.verifyCalls hf (hset▸hs.inOrder) hc _ hm (fun y hy h hh=>by
  obtain⟨i,hi,hy⟩:=mem_flatMap.1 hy
  obtain⟨x,hx,hin,he,hh⟩:=(mem_hitsAt hs hsh hset
   (Nat.lt_succ_iff.1 (mem_range.1 hi))).1 (mem_flatMap.2 ⟨y,hy,hh⟩)
  exact hK x hx hin.1 hin.2 i he h hh) p p1 hP hl hca
 rw[flatMap_assoc,hp1]at ht
 refine⟨ht,fun x hx hlo hhi i he=>?_⟩
 obtain⟨k,hk⟩:=getElem?_of_mem hx
 obtain⟨hht,hst⟩:=hits_registered hs hsh hset hk i
 rw[←hht]
 refine hco (k,i-distance x.2) ?_ (by rw[hst];exact hlo) (by rw[hst];exact hhi)
 exact mem_flatMap.2 ⟨i,mem_range.2 (Nat.lt_succ_of_le he.le),
  (mem_callsAt_iff hs hsh hset he.le).2 ⟨x,hk,he,rfl⟩⟩
end
end PatternScan.Rule.Compiler
