import PatternScan.Automaton.Table
import PatternScan.Proofs.Automaton.Links
/-! Every place of the table belongs to one row at most, since a row is put where all its places are
free. -/
namespace PatternScan.Bitmask
open Nat Array
section
variable (m:Bitmask)
include m
lemma isSet_eq_testBit (i:Nat):m.isSet i=(m.word (i/64)).toNat.testBit (i%64):=by simp[isSet,←UInt64.toNat_inj]
lemma isSet_word (k x:Nat)(hx:x<64):m.isSet (64*k+x)=(m.word k).toNat.testBit x:=by
 rw[isSet_eq_testBit]
 have hk:(64*k+x)/64=k:=by omega
 have hm:(64*k+x)%64=x:=by omega
 rw[hk,hm]
lemma word_of_size_le (k:Nat)(h:m.words.size≤k):m.word k=0:=by simp[word,h]
@[simp] lemma size_set (i:Nat):(m.set i).words.size=m.words.size:=by simp[set]
lemma isSet_set (i j:Nat):
 (m.set i).isSet j=(m.isSet j||(decide (i=j)&&decide (i/64 < m.words.size))):=by
 rw[isSet_eq_testBit,isSet_eq_testBit]
 have hj:j%64<64:=mod_lt _ (by decide)
 have hsa:i=j↔i/64=j/64∧i%64=j%64:=by omega
 have ho:(1 <<< (i%64).toUInt64:UInt64).toNat.testBit (j%64)=decide (i%64=j%64):=by
  have hs:(i%64).toUInt64.toNat%64=i%64:=by simp
  rw[UInt64.toNat_shiftLeft,hs,testBit_mod_two_pow]
  rcases Nat.lt_trichotomy (i%64) (j%64) with h|h|h
  ·have:(1:Nat).testBit (j%64-i%64)=false:=by
    rw[Nat.testBit_one_eq_true_iff_self_eq_zero.not.2 (by omega) |> Bool.eq_false_iff.2]
   simp[this,h.ne]
  ·simp[hj,h]
  ·simp[h.ne',not_le.2 h]
 by_cases hw:i/64=j/64
 ·by_cases hl:j/64 < m.words.size
  ·have:(m.set i).word (j/64)=m.word (j/64) ||| (1 <<< (i%64).toUInt64):=by
    simp only[set,word,getD_eq_getD_getElem?,getElem?_modify,hw]
    simp[hl]
   rw[this,UInt64.toNat_or,testBit_or,ho]
   simp[hsa,hw,hl]
  ·rw[word_of_size_le _ _ (by simpa using hl),word_of_size_le _ _ (by omega)]
   simp[hw,hl]
 ·have:(m.set i).word (j/64)=m.word (j/64):=by simp[set,word,getElem?_modify,hw]
  rw[this]
  simp[hsa,hw]
lemma isSet_grow (n i:Nat):(m.grow n).isSet i=m.isSet i:=by
 have hw:(m.grow n).word (i/64)=m.word (i/64):=by
  simp only[grow,word,getD_eq_getD_getElem?]
  grind
 rw[isSet_eq_testBit,isSet_eq_testBit,hw]
lemma size_grow (n:Nat):(m.grow n).words.size=max m.words.size n:=by
 simp[grow]
 omega
lemma isSet_of_full {i j:Nat}(h:m.word i=0xFFFFFFFFFFFFFFFF)(hj:j<64):m.isSet (i*64+j):=by
 rw[mul_comm,isSet_word m i j hj,h]
 exact Nat.testBit_two_pow_sub_one 64 j▸decide_eq_true hj
lemma firstOpen_spec (n i:Nat):i≤firstOpen m n i∧∀k,i*64≤k→k<firstOpen m n i*64→m.isSet k:=by
 induction n generalizing i with
 | zero=>exact⟨le_rfl,fun k hk hlt=>by simp[firstOpen]at hlt;omega⟩
 | succ n ih=>
  unfold firstOpen
  split
  ·next hf=>
   obtain⟨h1,h2⟩:=ih (i+1)
   refine⟨by omega,fun k hk hlt=>?_⟩
   by_cases hki:k<(i+1)*64
   ·have hs:=isSet_of_full m hf (j:=k-i*64) (by omega)
    rwa[Nat.add_sub_cancel' hk]at hs
   ·exact h2 k (by omega) hlt
  ·exact⟨le_rfl,fun k hk hlt=>by omega⟩
end
lemma isSet_clear (n i:Nat):(clear n).isSet i=false:=by
 have hw:(clear n).word (i/64)=0:=by
  simp only[clear,word,getD_eq_getD_getElem?,getElem?_replicate]
  split<;>rfl
 rw[isSet_eq_testBit,hw]
 simp
@[simp] lemma size_clear (n:Nat):(clear n).words.size=n/64+1:=by simp[clear,wordsFor]
lemma testBit_shiftedWord (b:Bitmask)(j k x:Nat)(hj:j<64)(hx:x<64):(shiftedWord b j k).toNat.testBit x=
  (decide (j≤64*k+x)&&b.isSet (64*k+x-j)):=by
 have hl:(b.word k <<< j.toUInt64).toNat.testBit x=(decide (j≤x)&&b.isSet (64*k+(x-j))):=by
  have hs:j.toUInt64.toNat%64=j:=by simp;omega
  rw[UInt64.toNat_shiftLeft,hs,testBit_mod_two_pow,isSet_word b k (x-j) (by omega)]
  simp[hx]
 have hh:0<j→0<k→(b.word (k-1) >>> (64-j).toUInt64).toNat.testBit x=
  (decide (x<j)&&b.isSet (64*k+x-j)):=by
  intro hj0 hk0
  have hs:(64-j).toUInt64.toNat%64=64-j:=by simp;omega
  rw[UInt64.toNat_shiftRight,hs]
  by_cases h:x<j
  ·have he:64*k+x-j=64*(k-1)+(64-j+x):=by omega
   rw[he,isSet_word b (k-1) _ (by omega)]
   simp[h]
  ·have hp:(b.word (k-1)).toNat<2^64:=(b.word (k-1)).toNat_lt
   have hz:(b.word (k-1)).toNat.testBit (64-j+x)=false:=
    testBit_lt_two_pow (lt_of_lt_of_le hp (Nat.pow_le_pow_right (by decide) (by omega)))
   simp[h,hz]
 unfold shiftedWord
 by_cases hc:0<j∧0<k
 ·have hco:(decide (j>0)&&decide (k>0)):=by simp[hc.1,hc.2]
  simp only[hco,if_true]
  rw[UInt64.toNat_or,testBit_or,hl,hh hc.1 hc.2]
  grind
 grind
lemma and_eq_zero_testBit (v w:UInt64)(h:v &&& w=0)(x:Nat):¬(v.toNat.testBit x∧w.toNat.testBit x):=by
 rintro⟨hv,hw⟩
 have hz:(v &&& w).toNat.testBit x:=by
  rw[UInt64.toNat_and,testBit_and,hv,hw]
  rfl
 rw[h]at hz
 simp at hz
lemma not_collides (a b:Bitmask)(i j ls n k:Nat)(h:collides a b i j ls n k=false)
 (q:Nat)(hk:k≤q)(hn:q<k+n)(hl:i+q≤ls):
 shiftedWord b j q &&& a.word (i+q)=0:=by
 induction n generalizing k with
 | zero=>omega
 | succ n ih=>
  simp only[collides,Bool.or_eq_false_iff]at h
  by_cases he:q=k
  ·subst q
   simpa[hl]using h.1
  ·exact ih (k+1) h.2 (by omega) (by omega)
def Free (a b:Bitmask)(place:Nat):Prop:=∀k,b.isSet k=true→a.isSet (place+k)=false
section
variable (a b:Bitmask)
include a b
lemma free_of_not_collides (i j last ls:Nat)(hj:j<64)
 (hb:∀k,b.isSet k→k+63<64*(ls+1))(ha:∀k,a.isSet k→k/64≤last)
 (h:collides a b i j last (ls+1) 0=false):Free a b (i*64+j):=by
 intro k hk
 by_contra hs
 rw[Bool.not_eq_false]at hs
 have hkb:=hb k hk
 have hq:i*64+j+k=64*(i+(j+k)/64)+(j+k)%64:=by omega
 have hl:i+(j+k)/64≤last:=by
  have:=ha _ hs
  omega
 have hz:=not_collides a b i j last (ls+1) 0 h ((j+k)/64) (by omega) (by omega) hl
 refine and_eq_zero_testBit _ _ hz ((j+k)%64) ⟨?_,?_⟩
 ·rw[testBit_shiftedWord b j _ _ hj (by omega)]
  have he:64*((j+k)/64)+(j+k)%64-j=k:=by omega
  rw[he,hk]
  simp
  omega
 ·rw[hq,isSet_word a _ _ (by omega)]at hs
  exact hs
lemma not_collides_of_free (i j ls n k:Nat)(hj:j<64)(hf:Free a b (i*64+j)):
 collides a b i j ls n k=false:=by
 induction n generalizing k with
 | zero=>rfl
 | succ n ih=>
  simp only[collides,Bool.or_eq_false_iff,Bool.and_eq_false_iff]
  refine⟨Or.inr ?_,ih (k+1)⟩
  simp only[bne_eq_false_iff_eq]
  apply UInt64.toNat_inj.1
  rw[UInt64.toNat_and]
  apply eq_of_testBit_eq
  intro x
  rw[testBit_and]
  by_cases hx:x<64
  ·have hfr:j≤64*k+x→b.isSet (64*k+x-j)→a.isSet (64*(i+k)+x)=false:=by
    intro hle hs
    rw[←hf _ hs]
    congr 1
    omega
   rw[testBit_shiftedWord b j k x hj hx,←isSet_word a (i+k) x hx]
   grind
  ·have hz:(a.word (i+k)).toNat.testBit x=false:=
    testBit_lt_two_pow (lt_of_lt_of_le (a.word (i+k)).toNat_lt (Nat.pow_le_pow_right (by decide) (by omega)))
   simp[hz]
lemma fitIn_some (i la ls n j r:Nat)(h:fitIn a b i la ls n j=some r):
 collides a b i r la (ls+1) 0=false∧j≤r∧r<j+n∧
  ∀q,j≤q→q<r→collides a b i q la (ls+1) 0:=by
 induction n generalizing j with
 | zero=>simp[fitIn]at h
 | succ n ih=>
  unfold fitIn at h
  split at h
  ·rename_i hc
   obtain⟨h1,h2,h3,h4⟩:=ih (j+1) h
   grind
  grind
lemma fitIn_none (i la ls n j:Nat)(h:fitIn a b i la ls n j=none):
 ∀q,j≤q→q<j+n→collides a b i q la (ls+1) 0:=by
 induction n generalizing j with
 | zero=>omega
 | succ n ih=>
  unfold fitIn at h
  split at h
  ·have:=ih (j+1) h
   grind
  ·cases h

/-- What a search of the words from `i` to `i + n` answers: a place without a collision, the first one. -/
structure Finds (last lastB i n:Nat)(found:Option Nat):Prop where
 fits:∀r,found=some r→∃w j,r=w*64+j∧j<64∧i≤w∧w < i+n∧collides a b w j last (lastB+1) 0=false
 least:∀q,i*64≤q→q<found.getD ((i+n)*64)→¬Free a b q
lemma Finds.skip {la ls i n:Nat}{o:Option Nat}(h:Finds a b la ls (i+1) n o)(hi:∀j<64,¬Free a b (i*64+j)):
 Finds a b la ls i (n+1) o where
 fits r hr:=by
  obtain⟨w,j,h1,h2,h3,h4,h5⟩:=h.fits r hr
  exact⟨w,j,h1,h2,by omega,by omega,h5⟩
 least q hq hlt:=by
  by_cases hqi:q<(i+1)*64
  ·have:=hi (q-i*64) (by omega)
   rwa[Nat.add_sub_cancel' hq]at this
  ·refine h.least q (by omega) ?_
   rwa[add_assoc,add_comm 1]
lemma fitFrom_finds (ln la ls n i:Nat)(hl:63≤ln)(hb:b.isSet 0):
 Finds a b la ls i n (fitFrom a b ln la ls n i):=by
 induction n generalizing i with
 | zero=>exact⟨nofun,fun q hq hlt=>by simp[fitFrom]at hlt;omega⟩
 | succ n ih=>
  unfold fitFrom
  split
  ·next hf=>
   refine (ih (i+1)).skip a b fun j hj hfr=>?_
   have:=hfr 0 hb
   rw[add_zero,isSet_of_full a hf hj]at this
   cases this
  split
  ·next j hj=>
   obtain⟨h1,_,h3,h4⟩:=fitIn_some a b i la ls _ _ _ hj
   refine⟨fun r hr=>⟨i,j,(Option.some.inj hr).symm,by omega,le_rfl,by omega,h1⟩,fun q hq hlt hfr=>?_⟩
   rw[Option.getD_some]at hlt
   have hc:=h4 (q-i*64) (by omega) (by omega)
   rw[not_collides_of_free a b i (q-i*64) _ _ _ (by omega) (by rwa[Nat.add_sub_cancel' hq])]at hc
   cases hc
  ·next hn=>
   refine (ih (i+1)).skip a b fun j hj hfr=>?_
   have hc:=fitIn_none a b i la ls _ _ hn j (by omega) (by omega)
   rw[not_collides_of_free a b i j _ _ _ hj hfr]at hc
   cases hc

/-- A mask whose bits reach to `ln` is put at the first place where nothing is set, at most just behind the bits
that are searched. -/
lemma fit_free (lenA ln hint:Nat)(hle:63≤lenA)(ha:∀k,a.isSet k→k<lenA)(h0:b.isSet 0)
 (hb:∀k,b.isSet k→k+63<64*(ln/64+1)):
 Free a b (fit a b lenA ln hint).1∧(fit a b lenA ln hint).1≤lenA∧
 ∀q,hint/64*64≤q→Free a b q→(fit a b lenA ln hint).1≤q:=by
 have hend:Free a b lenA:=fun k _=>by
  by_contra hs
  have:=ha _ (by simpa using hs)
  omega
 obtain⟨h1,hfu⟩:=firstOpen_spec a (lenA/64+1-hint/64) (hint/64)
 simp only[fit]
 generalize firstOpen a (lenA/64+1-hint/64) (hint/64)=i at *
 have hf:=fitFrom_finds a b lenA (lenA/64) (ln/64) (lenA/64+1-i) i hle h0
 generalize fitFrom a b lenA (lenA/64) (ln/64) _ _=found at *
 have hea:∀q,hint/64*64≤q→Free a b q→found.getD lenA≤q:=by
  intro q hq hfr
  -- a place before the first open word holds a bit already
  have hi:i*64≤q:=by
   by_contra hlt
   have:=hfr 0 h0
   rw[add_zero,hfu q hq (by omega)]at this
   cases this
  by_contra hlt
  refine hf.least q hi (lt_of_lt_of_le (not_le.1 hlt) ?_) hfr
  cases found with
  | none=>
   simp only[Option.getD_none]
   omega
  | some r=>exact le_rfl
 have hre:Free a b (found.getD lenA):=by
  cases found with
  | none=>exact hend
  | some r=>
   obtain⟨w,j,rfl,hj,-,-,hc⟩:=hf.fits r rfl
   exact free_of_not_collides a b w j _ _ hj hb (fun k hk=>by have:=ha k hk;omega) hc
 refine⟨hre,?_,hea⟩
 cases found with
 | none=>exact le_rfl
 | some r=>
  obtain⟨w,j,-,-,hw,hlt,-⟩:=hf.fits r rfl
  exact hea lenA (by omega) hend
end
end PatternScan.Bitmask
namespace PatternScan.Automaton
open List Array PatternScan.Bitmask
variable {l:Layout}{t:Trie}{text:Nat→List UInt8}{n s:Nat}
namespace Layout
def label (t:Trie)(c:Nat):Nat:=(t.state c).input.toNat+1
lemma label_pos (t:Trie)(c:Nat):0<label t c:=Nat.succ_pos _
lemma label_le (t:Trie)(c:Nat):label t c≤256:=by
 have:=(t.state c).input.toNat_lt
 simp only[label]
 omega
def Row (t:Trie)(n k:Nat):Prop:=k=0∨∃c∈(t.state n).children,k=label t c
variable {laid:Set Nat}{α:Type}
 (f:Nat→Nat)(g:Nat→α)(cs:List Nat)(m:Bitmask)(a:Array α)
lemma Row.le {k:Nat}(h:Row t n k):k≤256:=by
 rcases h with rfl|⟨c,-,rfl⟩
 ·omega
 ·exact label_le t c
lemma getD_set (i p:Nat)(v d:α):(a.setIfInBounds i v).getD p d=if p<a.size∧i=p then v else a.getD p d:=by
 rw[getD_eq_getD_getElem?,getD_eq_getD_getElem?,getElem?_setIfInBounds]
 grind
lemma size_foldl_set:(cs.foldl (fun a c=>a.setIfInBounds (f c) (g c)) a).size=a.size:=by
 induction cs generalizing a with
 | nil=>rfl
 | cons c _ ih=>rw[foldl_cons,ih,size_setIfInBounds]
open Classical in
lemma getD_foldl_set {cs:List Nat}{p:Nat}{v:α}(d:α)(hv:∀c∈cs,f c=p → g c=v):
 (cs.foldl (fun a c=>a.setIfInBounds (f c) (g c)) a).getD p d=
  if p<a.size∧∃c∈cs,f c=p then v else a.getD p d:=by
 induction cs generalizing a with
 | nil=>simp
 | cons c _ ih=>
  obtain⟨hc,hcs⟩:=List.forall_mem_cons.1 hv
  rw[foldl_cons,ih _ hcs,size_setIfInBounds,getD_set]
  simp only[mem_cons,exists_eq_or_imp]
  by_cases he:f c=p
  ·by_cases hp:p<a.size
   ·simp[he,hp,hc he]
   ·simp[hp]
  ·simp[he]
lemma isSet_foldl_set (k:Nat):(cs.foldl (fun m c=>m.set (f c)) m).isSet k↔
  m.isSet k∨k/64 < m.words.size∧∃c∈cs,f c=k:=by
 induction cs generalizing m with
 | nil=>simp
 | cons c _ ih=>
  rw[foldl_cons,ih,isSet_set,Bitmask.size_set]
  grind
lemma words_foldl_set:(cs.foldl (fun m c=>m.set (f c)) m).words.size=m.words.size:=by
 induction cs generalizing m with
 | nil=>rfl
 | cons c _ ih=>rw[foldl_cons,ih,Bitmask.size_set]
lemma isSet_mask (t:Trie)(n k:Nat):(mask t n).isSet k↔Row t n k:=by
 rw[mask,isSet_foldl_set,isSet_set,isSet_clear,Row]
 have hle:=label_le t
 simp only[rowSpan,label]at *
 simp
 grind
lemma reserve_eq (l:Layout)(t:Trie)(s n:Nat):l.reserve t s n={ l with
  transitions:=(t.state n).children.foldl (fun a c=>a.setIfInBounds (s+label t c) ⟨0,label t c⟩) l.transitions
  used:=(t.state n).children.foldl (fun m c=>m.set (s+label t c)) l.used
  slots:=(t.state n).children.foldl (fun a c=>a.setIfInBounds c (s+label t c)) l.slots }:=by
 rw[reserve]
 generalize (t.state n).children=cs
 induction cs generalizing l with
 | nil=>rfl
 | cons c _ ih=>exact ih _
def slot (l:Layout)(n:Nat):Nat:=l.slots.getD n 0

/-- The rows of the states in `laid` stand in the table, each place in one row at most. -/
structure Good (t:Trie)(l:Layout)(laid:Set Nat):Prop where
 root:0∈laid→l.slot 0=0
 laid_lt:∀{n},n∈laid→n<t.states.size
 parent:∀{n c},c∈(t.state n).children→c∈laid→n∈laid
 slots_size:l.slots.size=t.states.size
 room:∀{n},n∈laid→l.slot n+256<l.transitions.size
 used:∀{n},n∈laid→∀{k},Row t n k→l.used.isSet (l.slot n+k)=true
 inj:∀{n m},n∈laid→m∈laid→∀{i j},Row t n i→Row t m j→l.slot n+i=l.slot m+j→n=m
 waiting:∀{n c},n∈laid→c∈(t.state n).children→c∉laid→l.slot c=l.slot n+label t c
 label:∀{n},n∈laid→∀{k},Row t n k→(l.transitions.getD (l.slot n+k) default).label=k
 leads:∀{n c},n∈laid→c∈(t.state n).children→c∈laid→
  (l.transitions.getD (l.slot n+Layout.label t c) default).slot=l.slot c
 head:∀{n},n∈laid→n≠0→(t.state n).failure∈laid∧
  (l.transitions.getD (l.slot n) default).slot=l.slot (t.state n).failure
 owner:∀{p},(l.transitions.getD p default).label≠0→∃n∈laid,∃k,Row t n k∧p=l.slot n+k
 list:∀{n},n∈laid→l.lists.getD (l.slot n) none=(t.state n).first
lemma getD_append_replicate (n p:Nat)(d:α):(a++Array.replicate n d).getD p d=a.getD p d:=by
 rw[getD_eq_getD_getElem?,getD_eq_getD_getElem?]
 grind

/-- A row goes to the first place at or behind the word of the hint where all its places are free. -/
lemma place_spec (hs:512≤l.transitions.size)(hu:∀k,l.used.isSet k=true→k<l.transitions.size)(t:Trie)(n:Nat):
 (l.place t n).1+256<(l.place t n).2.transitions.size∧(∀k,(l.place t n).2.used.isSet k=l.used.isSet k)∧
 (∀k,Row t n k→l.used.isSet ((l.place t n).1+k)=false)∧
 ∀q,l.hint/64*64≤q→(∀k,Row t n k→l.used.isSet (q+k)=false)→(l.place t n).1≤q:=by
 obtain⟨hf,hle,hq⟩:=fit_free l.used (mask t n) l.transitions.size rowSpan l.hint (by omega) hu
  ((isSet_mask t n 0).2 (.inl rfl)) (by
   intro k hk
   have:=((isSet_mask t n k).1 hk).le
   simp only[rowSpan]
   omega)
 have hr:=fun k hk=>hf k ((isSet_mask t n k).2 hk)
 have hl:=fun q hi (hr:∀k,Row t n k→l.used.isSet (q+k)=false)=>hq q hi fun k hk=>hr k ((isSet_mask t n k).1 hk)
 rw[Layout.place]
 dsimp only
 generalize l.used.fit (mask t n) l.transitions.size rowSpan l.hint=found at *
 split
 ·refine⟨?_,fun k=>isSet_grow ..,hr,hl⟩
  simp only[size_append,size_replicate,rowSpan]
  omega
 ·rename_i hn
  simp only[rowSpan]at hn
  exact⟨by dsimp only;omega,fun _=>rfl,hr,hl⟩
lemma words_place (l:Layout):(l.transitions.size+rowSpan)/64+1 ≤
 Bitmask.wordsFor l.transitions.size+Bitmask.wordsFor rowSpan:=by
 simp only[Bitmask.wordsFor,rowSpan]
 omega
def openRow (l:Layout)(t:Trie)(n s:Nat):Layout:=
 { l with
   transitions:=(l.transitions.modify (l.slot n) fun x=>{x with slot:=s}).setIfInBounds s
    ⟨l.slot (t.state n).failure,0⟩
   lists:=l.lists.setIfInBounds s (t.state n).first
   used:=l.used.set s
   slots:=l.slots.setIfInBounds n s }

/-- What holds of a layout whatever rows were put into it. All bits before the word of the hint are set. -/
structure Sized (l:Layout):Prop where
 size:512≤l.transitions.size
 lists:l.lists.size=l.transitions.size
 words:l.transitions.size/64+1≤l.used.words.size
 used_lt:∀k,l.used.isSet k=true→k<l.transitions.size
 full:∀k,k<l.hint/64*64→l.used.isSet k=true
namespace Sized
lemma reserve (h:Sized l)(t:Trie){s:Nat}(hs:s+256<l.transitions.size)(n:Nat):Sized (l.reserve t s n):=by
 rw[reserve_eq]
 constructor
 case size=>exact (size_foldl_set ..).symm▸h.size
 case lists=>exact (size_foldl_set ..).symm▸h.lists
 case words=>
  simp only[size_foldl_set,words_foldl_set]
  exact h.words
 case used_lt=>
  intro k hk
  simp only[size_foldl_set]
  rcases (isSet_foldl_set ..).1 hk with hk|⟨-,c,-,rfl⟩
  ·exact h.used_lt k hk
  ·have:=label_le t c
   omega
 case full=>exact fun k hk=>(isSet_foldl_set ..).2 (.inl (h.full k hk))
lemma openRow (h:Sized l)(t:Trie){s:Nat}(hs:s<l.transitions.size)(n:Nat):Sized (openRow l t n s):=by
 constructor
 case size=>simpa[Layout.openRow]using h.size
 case lists=>simpa[Layout.openRow]using h.lists
 case words=>simpa[Layout.openRow]using h.words
 case used_lt=>
  intro k hk
  simp only[Layout.openRow,isSet_set,Bool.or_eq_true,Bool.and_eq_true,decide_eq_true_eq]at hk
  simp only[Layout.openRow,size_setIfInBounds,size_modify]
  rcases hk with hk|⟨rfl,-⟩
  ·exact h.used_lt k hk
  ·exact hs
 case full=>
  intro k hk
  simp only[Layout.openRow,isSet_set,h.full k hk,Bool.true_or]
lemma place (h:Sized l)(t:Trie)(n:Nat):Sized (l.place t n).2:=by
 -- the words before the new hint were set before the old one, or are full
 have hfu:∀k,k<(l.used.fit (mask t n) l.transitions.size rowSpan l.hint).2/64*64→l.used.isSet k=true:=by
  intro k hk
  obtain⟨h1,h2⟩:=firstOpen_spec l.used (l.transitions.size/64+1-l.hint/64) (l.hint/64)
  simp only[fit]at hk
  by_cases hh:k<l.hint/64*64
  ·exact h.full k hh
  ·exact h2 k (by omega) (by omega)
 rw[Layout.place]
 dsimp only
 split
 ·refine⟨?_,by simp[h.lists],?_,fun k hk=>?_,fun k hk=>(isSet_grow ..).trans (hfu k hk)⟩
  ·have:=h.size
   simp only[size_append]
   omega
  ·have:=words_place l
   simp only[size_append,size_replicate,size_grow]
   omega
  ·rw[isSet_grow]at hk
   exact (h.used_lt k hk).trans_le (by simp)
 ·exact⟨h.size,h.lists,h.words,h.used_lt,hfu⟩
end Sized
lemma Good.grow (h:Good t l laid)(hint k w:Nat):Good t { l with
  hint:=hint
  transitions:=l.transitions++Array.replicate k ⟨0,0⟩
  lists:=l.lists++Array.replicate k none
  used:=l.used.grow w } laid:=by
 have htr:∀p,(l.transitions++Array.replicate k (⟨0,0⟩:Transition)).getD p default=l.transitions.getD p default:=
  fun p=>getD_append_replicate l.transitions k p ⟨0,0⟩
 have hli:∀p,(l.lists++Array.replicate k none).getD p none=l.lists.getD p none:=
  fun p=>getD_append_replicate l.lists k p none
 have hu:=l.used.isSet_grow w
 exact { h with
  room:=fun hn=>(h.room hn).trans_le (by simp)
  used:=fun hn _ hk=>(hu _).trans (h.used hn hk)
  label:=fun hn _ hk=>by rw[htr];exact h.label hn hk
  leads:=fun hn hc hcl=>by rw[htr];exact h.leads hn hc hcl
  head:=fun hn h0=>by rw[htr];exact h.head hn h0
  owner:=fun {p} hp=>h.owner (by rwa[htr]at hp)
  list:=fun hn=>by rw[hli];exact h.list hn }
lemma Good.place (h:Good t l laid)(hz:Sized l)(n:Nat):
 Good t (l.place t n).2 laid∧(l.place t n).1+256<(l.place t n).2.transitions.size∧
 ∀k,Row t n k→(l.place t n).2.used.isSet ((l.place t n).1+k)=false:=by
 obtain⟨hr,hu,hf,-⟩:=place_spec hz.size hz.used_lt t n
 refine⟨?_,hr,fun k hk=>(hu _).trans (hf k hk)⟩
 rw[Layout.place]
 dsimp only
 split
 ·exact h.grow _ rowSpan _
 ·exact {h with}
lemma lay_eq (l:Layout)(t:Trie)(n:Nat):
 l.lay t n=(openRow (l.place t n).2 t n (l.place t n).1).reserve t (l.place t n).1 n:=rfl

/-- A free row for a state, either the root or one whose parent and failure state have theirs. -/
structure Fresh (t:Trie)(l:Layout)(laid:Set Nat)(n s:Nat):Prop where
 lt:n<t.states.size
 root:n=0→s=0∧laid=∅
 notMem:n∉laid
 parent:n≠0→∃p∈laid,n∈(t.state p).children
 failure:n≠0→(t.state n).failure∈laid
 place:l.slot n<l.transitions.size
 room:s+256<l.transitions.size
 free:∀k,Row t n k→l.used.isSet (s+k)=false
structure Lays (t:Trie)(l u:Layout)(n s:Nat):Prop where
 size:u.transitions.size=l.transitions.size
 slots_size:u.slots.size=l.slots.size
 slot_self:u.slot n=s
 slot_child:∀c∈(t.state n).children,u.slot c=s+label t c
 slot_other:∀{m},m≠n→m∉(t.state n).children→u.slot m=l.slot m
 used:∀q,u.used.isSet q=true↔l.used.isSet q=true∨∃k,Row t n k∧q=s+k
 failure:(u.transitions.getD s default).slot=l.slot (t.state n).failure
 label:∀k,Row t n k→(u.transitions.getD (s+k) default).label=k
 place:(∀k,Row t n k→l.slot n≠s+k)→u.transitions.getD (l.slot n) default=
  ⟨s,(l.transitions.getD (l.slot n) default).label⟩
 other:∀{q},q≠l.slot n→(∀k,Row t n k→q≠s+k)→u.transitions.getD q default=l.transitions.getD q default
 list_self:u.lists.getD s none=(t.state n).first
 list_other:∀{q},q≠s→u.lists.getD q none=l.lists.getD q none
open Classical in
lemma reserve_openRow_lays (h:Good t l laid)(hz:Sized l)(hf:Fresh t l laid n s)
 (hch:∀c∈(t.state n).children,c<t.states.size∧n<c):
 Lays t l ((openRow l t n s).reserve t s n) n s:=by
 have hro:=hf.room
 have hsl:∀m,((openRow l t n s).reserve t s n).slot m=
  if m<t.states.size∧m∈(t.state n).children then s+Layout.label t m
  else if m<t.states.size∧n=m then s else l.slot m:=by
  intro m
  rw[slot,reserve_eq,getD_foldl_set _ _ _ _ fun c _ he=>by rw[he]]
  simp only[openRow,getD_set,size_setIfInBounds,h.slots_size,exists_eq_right,slot]
 have ht:∀q,((openRow l t n s).reserve t s n).transitions.getD q default=
  if q<l.transitions.size∧∃c∈(t.state n).children,s+Layout.label t c=q then ⟨0,q-s⟩
  else if q<l.transitions.size∧s=q then ⟨l.slot (t.state n).failure,0⟩
  else if l.slot n=q then ⟨s,(l.transitions.getD q default).label⟩
  else l.transitions.getD q default:=by
  intro q
  rw[reserve_eq,getD_foldl_set (v:=⟨0,q-s⟩) _ _ _ _ fun c _ he=>by rw[←he,Nat.add_sub_cancel_left]]
  simp only[openRow,getD_set,size_setIfInBounds,size_modify]
  congr 2
  by_cases he:l.slot n=q
  ·rw[←he,getD_modify _ _ _ _ _ hf.place,if_pos rfl]
  ·rw[if_neg he,getD_eq_getD_getElem?,Array.getElem?_modify,if_neg he,getD_eq_getD_getElem?]
 have hr:∀{q},(∀k,Row t n k→q≠s+k)→s≠q∧¬ ∃c∈(t.state n).children,s+Layout.label t c=q:=by
  intro q hq
  exact⟨fun he=>hq 0 (.inl rfl) he.symm,fun⟨c,hc,he⟩=>hq _ (.inr ⟨c,hc,rfl⟩) he.symm⟩
 have hh:¬ ∃c∈(t.state n).children,s+Layout.label t c=s:=by
  rintro⟨c,-,he⟩
  have:=label_pos t c
  omega
 constructor
 case size=>simp[reserve_eq,openRow,size_foldl_set]
 case slots_size=>simp[reserve_eq,openRow,size_foldl_set]
 case slot_self=>rw[hsl,if_neg fun hm=>lt_irrefl n (hch n hm.2).2,if_pos ⟨hf.lt,rfl⟩]
 case slot_child=>
  intro c hc
  rw[hsl,if_pos ⟨(hch c hc).1,hc⟩]
 case slot_other=>
  intro m hm hmc
  rw[hsl,if_neg fun h=>hmc h.2,if_neg fun h=>hm h.2.symm]
 case used=>
  intro q
  have hw:=hz.words
  simp only[reserve_eq,isSet_foldl_set,openRow,isSet_set,Bitmask.size_set,
   Bool.or_eq_true,Bool.and_eq_true,decide_eq_true_eq,or_assoc]
  refine or_congr_right ⟨?_,?_⟩
  ·rintro (⟨rfl,-⟩|⟨-,c,hc,rfl⟩)
   ·exact⟨0,.inl rfl,rfl⟩
   ·exact⟨_,.inr ⟨c,hc,rfl⟩,rfl⟩
  ·rintro⟨k,hk,rfl⟩
   have:=hk.le
   rcases hk with rfl|⟨c,hc,rfl⟩
   ·exact .inl ⟨rfl,by omega⟩
   ·exact .inr ⟨by omega,c,hc,rfl⟩
 case failure=>rw[ht,if_neg fun h=>hh h.2,if_pos ⟨by omega,rfl⟩]
 case label=>
  rintro k hk
  have:=hk.le
  rcases hk with rfl|⟨c,hc,rfl⟩
  ·rw[ht,if_neg fun h=>hh h.2,if_pos ⟨by omega,rfl⟩]
  ·rw[ht,if_pos ⟨by omega,c,hc,rfl⟩,Nat.add_sub_cancel_left]
 case place=>
  intro hq
  rw[ht,if_neg fun h=>(hr hq).2 h.2,if_neg fun h=>(hr hq).1 h.2,if_pos rfl]
 case other=>
  intro q hqn hq
  rw[ht,if_neg fun h=>(hr hq).2 h.2,if_neg fun h=>(hr hq).1 h.2,if_neg hqn.symm]
 case list_self=>
  rw[reserve_eq]
  refine (getD_set ..).trans (if_pos ⟨?_,rfl⟩)
  rw[hz.lists]
  omega
 case list_other=>
  intro q hq
  rw[reserve_eq]
  exact (getD_set ..).trans (if_neg fun h=>hq h.2.symm)
lemma label_inj (hs:Trie.Shape t text){c d:Nat}(hc:c∈(t.state n).children)
 (hd:d∈(t.state n).children)(h:label t c=label t d):c=d:=by
 obtain⟨hcl,-,hct⟩:=hs.below hc
 obtain⟨hdl,-,hdt⟩:=hs.below hd
 refine hs.distinct hcl hdl ?_
 rw[hct,hdt,UInt8.toNat_inj.1 (Nat.succ.inj h)]
section
variable (hs:Trie.Shape t text)
include hs
lemma Good.lays {u:Layout}(h:Good t l laid)(hf:Fresh t l laid n s)
 (hl:Lays t l u n s):Good t u (insert n laid):=by
 -- What the other rows use is not in the new row.
 have hfr:∀{m},m∈laid→∀{i j},Row t m i→Row t n j→l.slot m+i≠s+j:=by
  intro m hm i j hi hj he
  have hu:=h.used hm hi
  rw[he,hf.free j hj]at hu
  cases hu
 have hsl:∀{m},m∈laid→u.slot m=l.slot m:=fun {m} hm=>
  hl.slot_other (fun he=>hf.notMem (he▸hm)) fun hmc=>hf.notMem (h.parent hmc hm)
 have hla:∀{q},(∀k,Row t n k→q≠s+k)→
  (u.transitions.getD q default).label=(l.transitions.getD q default).label:=by
  intro q hq
  by_cases hqn:q=l.slot n
  ·subst hqn
   rw[hl.place hq]
  ·rw[hl.other hqn hq]
 -- The place where the slot of the new row is noted is in the row of its parent.
 have hpl:∀{m k},m∈laid→Row t m k→l.slot m+k=l.slot n→n∈(t.state m).children∧k=Layout.label t n:=by
  intro m k hm hk he
  obtain⟨p,hp,hnp⟩:=hf.parent fun h0=>Set.notMem_empty m ((hf.root h0).2▸hm)
  rw[h.waiting hp hnp hf.notMem]at he
  obtain rfl:=h.inj hm hp hk (.inr ⟨n,hnp,rfl⟩) he
  exact⟨hnp,by omega⟩
 have ho:∀{m k},m∈laid→Row t m k→(n∈(t.state m).children→k≠Layout.label t n)→
  u.transitions.getD (l.slot m+k) default=l.transitions.getD (l.slot m+k) default:=
  fun hm hk hne=>hl.other (fun he=>hne (hpl hm hk he).1 (hpl hm hk he).2) fun j hj=>hfr hm hk hj
 constructor
 case root=>
  rintro (rfl|h0)
  ·rw[hl.slot_self,(hf.root rfl).1]
  ·rw[hsl h0,h.root h0]
 case laid_lt=>
  rintro m (rfl|hm)
  ·exact hf.lt
  ·exact h.laid_lt hm
 case parent=>
  rintro m c hc (rfl|hcl)
  ·obtain⟨p,hp,hnp⟩:=hf.parent (Nat.zero_le m |>.trans_lt (hs.below hc).2.1).ne'
   exact .inr (hs.parent_unique hc hnp▸hp)
  ·exact Set.mem_insert_of_mem _ (h.parent hc hcl)
 case slots_size=>exact hl.slots_size.trans h.slots_size
 case room=>
  rintro m (rfl|hm)
  ·rw[hl.size,hl.slot_self]
   exact hf.room
  ·rw[hl.size,hsl hm]
   exact h.room hm
 case used=>
  rintro m (rfl|hm) k hk
  ·exact (hl.used _).2 (.inr ⟨k,hk,by rw[hl.slot_self]⟩)
  ·exact (hl.used _).2 (.inl (hsl hm▸h.used hm hk))
 case inj=>
  rintro m m' (rfl|hm) (rfl|hm') i j hi hj he
  ·rfl
  ·rw[hl.slot_self,hsl hm']at he
   exact absurd he.symm (hfr hm' hj hi)
  ·rw[hl.slot_self,hsl hm]at he
   exact absurd he (hfr hm hi hj)
  ·rw[hsl hm,hsl hm']at he
   exact h.inj hm hm' hi hj he
 case waiting=>
  rintro m c (rfl|hm) hc hcl
  ·rw[hl.slot_self,hl.slot_child c hc]
  ·rw[hsl hm,←h.waiting hm hc fun hc=>hcl (.inr hc)]
   exact hl.slot_other (fun he=>hcl (.inl he)) fun hcn=>hf.notMem (hs.parent_unique hc hcn▸hm)
 case label=>
  rintro m (rfl|hm) k hk
  ·rw[hl.slot_self,hl.label k hk]
  ·rw[hsl hm,hla fun j hj=>hfr hm hk hj,h.label hm hk]
 case leads=>
  rintro m c (rfl|hm) hc hcl
  ·rcases hcl with rfl|hcl
   ·exact absurd (hs.below hc).2.1 (lt_irrefl _)
   ·exact absurd (h.parent hc hcl) hf.notMem
  have hr:Row t m (Layout.label t c):=.inr ⟨c,hc,rfl⟩
  rw[hsl hm]
  rcases hcl with rfl|hcl
  ·rw[←h.waiting hm hc hf.notMem,hl.slot_self,hl.place fun k hk=>?_]
   rw[h.waiting hm hc hf.notMem]
   exact hfr hm hr hk
  ·rw[hsl hcl,←h.leads hm hc hcl,ho hm hr fun hn he=>hf.notMem ?_]
   exact label_inj hs hc hn he▸hcl
 case head=>
  rintro m (rfl|hm) h0
  ·rw[hl.slot_self,hl.failure,hsl (hf.failure h0)]
   exact⟨.inr (hf.failure h0),rfl⟩
  ·obtain⟨hfl,hfs⟩:=h.head hm h0
   have hsa:=ho hm (.inl rfl) fun _=>(label_pos t n).ne
   rw[hsl hm,hsl hfl,←hfs]
   exact⟨.inr hfl,congrArg Transition.slot hsa⟩
 case owner=>
  intro q hq
  by_cases hqs:∃k,Row t n k∧q=s+k
  ·obtain⟨k,hk,rfl⟩:=hqs
   exact⟨n,.inl rfl,k,hk,by rw[hl.slot_self]⟩
  ·rw[hla fun k hk he=>hqs ⟨k,hk,he⟩]at hq
   obtain⟨m,hm,k,hk,rfl⟩:=h.owner hq
   exact⟨m,.inr hm,k,hk,by rw[hsl hm]⟩
 case list=>
  rintro m (rfl|hm)
  ·rw[hl.slot_self,hl.list_self]
  ·rw[hsl hm,hl.list_other (q:=l.slot m) fun he=>hfr hm (.inl rfl) (.inl rfl) he]
   exact h.list hm
lemma Good.reserve {laid:Set Nat}{n s:Nat}(h:Good t l laid)(hz:Sized l)(hf:Fresh t l laid n s):
 Good t ((openRow l t n s).reserve t s n) (insert n laid):=
 h.lays hs hf (reserve_openRow_lays h hz hf fun _ hc=>⟨(hs.below hc).1,(hs.below hc).2.1⟩)
lemma Good.lay {laid:Set Nat}(h:Good t l laid)(hz:Sized l){n:Nat}(hn:n<t.states.size)(h0:n≠0)
 (hl:n∉laid)(hp:∃p∈laid,n∈(t.state p).children)(hf:(t.state n).failure∈laid):
 Good t (l.lay t n) (insert n laid):=by
 obtain⟨hg,hr,hfr⟩:=h.place hz n
 rw[lay_eq]
 refine hg.reserve hs (hz.place t n) ⟨hn,fun he=>absurd he h0,hl,fun _=>hp,fun _=>hf,?_,hr,hfr⟩
 obtain⟨p,hpl,hnp⟩:=hp
 rw[hg.waiting hpl hnp hl]
 have:=hg.room hpl
 have:=label_le t n
 omega
end
def initial (t:Trie):Layout:=
 Layout.reserve { start t.states.size with
  lists:=(start t.states.size).lists.setIfInBounds 0 (t.state 0).first
  used:=(start t.states.size).used.set 0 } t 0 0
lemma getD_replicate (n p:Nat)(d:α):(Array.replicate n d).getD p d=d:=by
 rw[getD_eq_getD_getElem?,Array.getElem?_replicate]
 split<;>rfl
lemma isSet_start (n k:Nat):(start n).used.isSet k=false:=isSet_clear 512 k
lemma start_good (t:Trie):Good t (start t.states.size) ∅:=by
 have hl:∀p,((start t.states.size).transitions.getD p default).label=0:=by
  intro p
  rw[start,show (default:Transition)=⟨0,0⟩ from rfl,getD_replicate]
 constructor
 case owner=>exact fun hp=>absurd (hl _) hp
 case slots_size=>exact size_replicate
 all_goals exact nofun
lemma start_sized (n:Nat):Sized (start n):=by
 refine⟨by simp[start],by simp[start],by simp[start],fun k hk=>?_,fun k hk=>?_⟩
 ·rw[isSet_start]at hk
  cases hk
 ·simp[start]at hk
lemma slot_start (n m:Nat):(start n).slot m=0:=getD_replicate n m 0
lemma initial_eq (t:Trie):initial t=(openRow (start t.states.size) t 0 0).reserve t 0 0:=by
 have ho:openRow (start t.states.size) t 0 0={ start t.states.size with
  lists:=(start t.states.size).lists.setIfInBounds 0 (t.state 0).first
  used:=(start t.states.size).used.set 0 }:=by
  simp only[openRow,slot_start,mk.injEq,true_and]
  constructor
  ·refine Array.ext_getElem? fun i=>?_
   simp only[start,getElem?_setIfInBounds,Array.getElem?_modify,Array.getElem?_replicate]
   grind
  ·exact setIfInBounds_replicate_self
 rw[ho,initial]
lemma initial_good (hs:Trie.Shape t text):Good t (initial t) {0}:=by
 have hg:=(start_good t).reserve hs (start_sized _) ⟨hs.root_lt,fun _=>⟨rfl,rfl⟩,nofun,
  fun h=>absurd rfl h,fun h=>absurd rfl h,by rw[slot_start];simp[start],by simp[start],fun k _=>isSet_start ..⟩
 rwa[insert_empty_eq,←initial_eq]at hg
namespace Sized
lemma lay (h:Sized l)(t:Trie)(n:Nat):Sized (l.lay t n):=by
 have hr:=(place_spec h.size h.used_lt t n).1
 rw[lay_eq]
 refine ((h.place t n).openRow t (by omega) n).reserve t ?_ n
 simpa[Layout.openRow]using hr
lemma rows (t:Trie)(o:List Nat):Sized (o.foldl (fun l n=>l.lay t n) (initial t)):=by
 induction o using List.reverseRecOn with
 | nil=>
  rw[foldl_nil,initial_eq]
  exact ((start_sized _).openRow t (by simp[start]) 0).reserve t (by simp[Layout.openRow,start]) 0
 | append_singleton o n ih=>
  rw[List.foldl_append]
  exact ih.lay t n
end Sized
lemma rows_good {rg:List (Nat×AtomItem)}{bs:Trie}(h:Trie.Linked rg text bs t)
 (o r:List Nat)(ho:t.order=o++r):
 Good t (o.foldl (fun l n=>l.lay t n) (initial t)) (insert 0 {m | m∈o}):=by
 have hs:Trie.Shape t text:=h.shape.congr h.alike.size h.alike.states
 induction o using List.reverseRecOn generalizing r with
 | nil=>
  have hse:(insert 0 {m | m∈([]:List Nat)}:Set Nat)={0}:=by simp
  rw[hse]
  exact initial_good hs
 | append_singleton o n ih=>
  have ho':t.order=o++n::r:=by simpa using ho
  obtain⟨hn,hn0,hno,hle,ha⟩:=hs.order_split ho'
  have hl:∀m,m<t.states.size→(text m).length<(text n).length→m∈(insert 0 {m | m∈o}:Set Nat):=by tauto
  have hsk:=h.skips n (h.alike.size▸hn) hn0
  have hse:(insert 0 {m | m∈o++[n]}:Set Nat)=insert n (insert 0 {m | m∈o}):=by grind
  rw[hse,List.foldl_append,foldl_cons]
  refine (ih (n::r) ho').lay hs (Sized.rows t o) hn hn0 ?_ ?_ (hl _ (h.alike.size▸hsk.lt) hsk.shorter)
  ·grind
  ·obtain⟨p,hpn⟩:=hs.above hn hn0
   exact⟨p,hl p (hs.parent_lt hpn) (by rw[hs.length_child hpn];omega),hpn⟩
theorem place_smallest (t:Trie) (o:List Nat) (n:Nat) :
 ∃ slot l',(o.foldl (fun l n=>l.lay t n) (initial t)).place t n = (slot,l') ∧
  (∀k,Row t n k → (o.foldl (fun l n=>l.lay t n) (initial t)).used.isSet (slot+k) = false) ∧
  (∀q,(∀k,Row t n k → (o.foldl (fun l n=>l.lay t n) (initial t)).used.isSet (q+k) = false) → slot≤q) ∧
  slot+256<l'.transitions.size ∧ slot+256<l'.lists.size ∧ slot+256<64*l'.used.words.size ∧
  ∀k,l'.used.isSet k = (o.foldl (fun l n=>l.lay t n) (initial t)).used.isSet k := by
 have h:=Sized.rows t o
 generalize o.foldl (fun l n=>l.lay t n) (initial t)=l at *
 obtain⟨hr,hu,hf,hq⟩:=place_spec h.size h.used_lt t n
 have hp:=h.place t n
 have hw:=hp.words
 refine⟨(l.place t n).1,(l.place t n).2,rfl,hf,fun q hfr=>?_,hr,hp.lists▸hr,by omega,hu⟩
 by_cases hh:l.hint/64*64≤q
 ·exact hq q hh hfr
 ·have:=hfr 0 (.inl rfl)
  rw[add_zero,h.full q (by omega)]at this
  cases this
def twoLetters:Trie:=(Trie.ofLists [(0,[⟨Atom.ofBytes [97,98],0,default⟩])]).linked
theorem rows_interleave : ((initial twoLetters).place twoLetters 1).1=1∧
 (initial twoLetters).used.isSet (1+97)=true∧¬ ∀k<257,(initial twoLetters).used.isSet
  (((initial twoLetters).place twoLetters 1).1+k)=false:=by
 have h:((initial twoLetters).place twoLetters 1).1=1∧(initial twoLetters).used.isSet (1+97)=true:=by decide +kernel
 refine⟨h.1,h.2,fun hf=>?_⟩
 have:=hf 97 (by decide)
 rw[h.1,h.2]at this
 cases this
end Layout
/-- Every state of a trie has a slot, from which the table goes on as the trie does. -/
structure Table.Represents (tb:Table)(t:Trie)(slot:Nat→Nat):Prop where
 root:slot 0=0
 slot_ne:∀n,n<t.states.size→n≠0→slot n≠0
 goes:∀n c b,n<t.states.size→t.child? n b=some c→
  tb.transitions.getD (slot n+(b.toNat+1)) default=⟨slot c,b.toNat+1⟩
 stops:∀n b,n<t.states.size→t.child? n b=none→(tb.transitions.getD (slot n+(b.toNat+1)) default).label≠b.toNat+1
 fails:∀n,n<t.states.size→n≠0→(tb.transitions.getD (slot n) default).slot=slot (t.state n).failure
 list:∀n,n<t.states.size→tb.lists.getD (slot n) none=(t.state n).first
 pool:tb.pool=t.pool
lemma Layout.Good.represents (hs:Trie.Shape t text)
 (h:Good t l {n | n<t.states.size}):
 Table.Represents {transitions:=l.transitions,lists:=l.lists,pool:=t.pool} t l.slot:=by
 have hsl:∀{n m},n<t.states.size→m<t.states.size→l.slot n=l.slot m→n=m:=
  fun hn hm he=>h.inj hn hm (.inl rfl) (.inl rfl) he
 refine⟨h.root hs.root_lt,fun n hn h0 he=>h0 ?_,?_,?_,fun n hn h0=>(h.head hn h0).2,fun n hn=>h.list hn,rfl⟩
 ·exact hsl hn hs.root_lt (he.trans (h.root hs.root_lt).symm)
 ·intro n c b hn hc
  have hme:=List.mem_of_find?_eq_some hc
  have hb:=List.find?_some hc
  rw[beq_iff_eq]at hb
  have h1:=h.label hn (.inr ⟨c,hme,rfl⟩)
  have h2:=h.leads hn hme (hs.below hme).1
  rw[Layout.label,hb]at h1 h2
  generalize l.transitions.getD (l.slot n+(b.toNat+1)) default=x at h1 h2⊢
  cases x
  simp_all
 intro n b hn hc hl
 change (l.transitions.getD (l.slot n+(b.toNat+1)) default).label=b.toNat+1 at hl
 -- A place with this label is at this distance from its own row's slot, so it is in this row.
 obtain⟨m,hm,k,hk,he⟩:=h.owner (p:=l.slot n+(b.toNat+1)) (by omega)
 have hlk:=h.label hm hk
 rw[←he,hl]at hlk
 obtain rfl:=hsl hn hm (by omega)
 rcases hk with rfl|⟨c,hc',rfl⟩
 ·omega
 ·have:(t.state c).input=b:=UInt8.toNat_inj.1 (Nat.succ.inj hlk.symm)
  simpa[this]using List.find?_eq_none.1 hc c hc'
lemma Trie.Linked.table {r:List (Nat×AtomItem)}{text:Nat→List UInt8}{bs:Trie}
 (h:Trie.Linked r text bs bs.linked):
 ∃slot,Table.Represents bs.table bs.linked slot:=by
 have hs:Trie.Shape bs.linked text:=h.shape.congr h.alike.size h.alike.states
 have hg:=Layout.rows_good h bs.linked.order [] (by simp)
 have hse:(insert 0 {m | m∈bs.linked.order}:Set Nat)={n | n<bs.linked.states.size}:=by
  obtain⟨_,hm,_⟩:=hs.order_spec
  ext m
  simp only[Set.mem_insert_iff,Set.mem_ofPred_eq,hm]
  by_cases h0:m=0
  ·simp[h0,hs.root_lt]
  ·simp[h0]
 rw[hse]at hg
 exact⟨_,hg.represents hs⟩
end PatternScan.Automaton
