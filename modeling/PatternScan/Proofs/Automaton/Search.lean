import PatternScan.Proofs.Automaton.Table
import PatternScan.Scan.Search
/-! After each byte the table is in the state of the longest suffix of what was read. -/
namespace PatternScan
open List Automaton.Trie Automaton Limits Atom
variable {regs:List (Nat×AtomItem)}{text:Nat→List UInt8}{w:List UInt8}{n k:Nat}
def Bytes.list (b:Bytes):List UInt8:=b.data.toList
lemma Bytes.length_list (b:Bytes):b.list.length=b.size:=Array.length_toList
lemma Bytes.take_succ_list (b:Bytes)(i:Nat)(h:i<b.size):b.list.take (i+1)=b.list.take i++[b.byteAt i]:=by
 have hl:i<b.list.length:=by exact h
 rw[take_succ_eq_append_getElem hl,byteAt,dif_pos h]
 rfl
namespace Automaton
variable {base t:Trie}
structure Trie.Longest (t:Trie)(text:Nat→List UInt8)(w:List UInt8)(n:Nat):Prop where
 lt:n<t.states.size
 suffix:text n <:+ w
 longest:∀m,m<t.states.size→text m <:+ w→(text m).length≤(text n).length
lemma Trie.Shape.longest_nil (h:Shape t text):t.Longest text [] 0:=by
 refine⟨h.root_lt,h.root_text▸nil_suffix,fun m _ hm=>?_⟩
 rw[suffix_nil]at hm
 simp[hm]
lemma Trie.gather_longest (hp:∀x∈regs,∃n,n<base.states.size∧text n=x.2.atom.values)
 (hn:base.Longest text w n)(r:List Nat):
 gather regs r w=gather regs r (text n):=by
 obtain⟨v,rfl⟩:=hn.suffix
 refine gather_skip r v (text n) fun x hx hlt=>?_
 refine eq_nil_iff_forall_not_mem.2 fun k hk=>?_
 obtain⟨y,hy,rfl⟩:=Option.map_eq_some_iff.1 (mem_owned.1 hk)
 obtain⟨m,hm,hmt⟩:=hp y (mem_of_getElem? hy)
 have:=hn.longest m hm (hmt▸hx)
 rw[hmt]at this
 omega
lemma Trie.mem_gather_root (w:List UInt8)(k:Nat):k∈gather regs (owned regs []) w↔
  ∃x,regs[k]?=some x∧x.2.atom.values <:+ w:=by
 rw[mem_gather]
 constructor
 ·rintro (⟨v,_,hv,hk⟩|hk)
  ·obtain⟨x,hx,rfl⟩:=Option.map_eq_some_iff.1 (mem_owned.1 hk)
   exact⟨x,hx,hv⟩
  ·obtain⟨x,hx,hv⟩:=Option.map_eq_some_iff.1 (mem_owned.1 hk)
   exact⟨x,hx,hv▸nil_suffix⟩
 ·rintro⟨x,hx,hv⟩
  have hk:k∈owned regs x.2.atom.values:=mem_owned.2 (by rw[hx];rfl)
  grind
section
variable {tb:Table}{slot:Nat→Nat}(hr:tb.Represents t slot)(h:Linked regs text base t)
 (b:UInt8)(a:Nat)
include hr h b a
lemma Table.Represents.step_from (hk:k<base.states.size)(hw:text k <:+ w)(ha:(text k).length<a)
 (hde:∀m,m<base.states.size→text m <:+ w→(text k).length<(text m).length→base.child? m b=none):
 ∃n,base.Longest text (w++[b]) n∧tb.step b a (slot k)=slot n:=by
 have hsi:=h.alike.size
 induction a generalizing k with
 | zero=>exact absurd ha (Nat.not_lt_zero _)
 | succ a ih=>
  rw[step]
  cases hc:base.child? k b with
  | some c=>
   obtain⟨hcl,hct⟩:=(h.shape.child?_eq_some_iff hk).1 hc
   rw[hr.goes k c b (hsi▸hk) (h.alike.child? k b▸hc)]
   refine⟨c,⟨hcl,?_,?_⟩,by simp⟩
   ·rw[hct]
    obtain⟨u,hu⟩:=hw
    exact⟨u,by rw[←hu,append_assoc]⟩
   intro m hm hs
   rcases suffix_concat_iff.1 hs with he|⟨z,hz,hzs⟩
   ·simp[he]
   ·obtain⟨e,hel,het⟩:=h.shape.exists_state_of_append hm hz
    rw[hz,hct,length_append,length_append]
    by_contra hlt
    have hde':=(h.shape.child?_eq_none_iff hel).1 (hde e hel (het▸hzs) (by rw[het];omega))
    exact hde' m hm (by rw[hz,het])
  | none=>
   have hst:=hr.stops k b (hsi▸hk) (h.alike.child? k b▸hc)
   rw[if_neg (by simpa using hst)]
   -- No suffix of the word goes on by the byte down to this length.
   have hde':∀m,m<base.states.size→text m <:+ w→
    (text k).length≤(text m).length→base.child? m b=none:=by
    intro m hm hms hle
    rcases hle.lt_or_eq with hlt|heq
    ·exact hde m hm hms hlt
    ·have hmk:=suffix_of_suffix_length_le hms hw heq.ge
     rw[h.shape.distinct hm hk (hmk.eq_of_length heq.symm)]
     exact hc
   by_cases hk0:k=0
   ·subst hk0
    refine⟨0,⟨h.shape.root_lt,?_,fun m hm hs=>?_⟩,by simp[hr.root]⟩
    ·rw[h.shape.root_text]
     exact nil_suffix
    rcases suffix_concat_iff.1 hs with he|⟨z,hz,hzs⟩
    ·simp[he]
    ·obtain⟨e,hel,het⟩:=h.shape.exists_state_of_append hm hz
     have hn:=(h.shape.child?_eq_none_iff hel).1
      (hde' e hel (het▸hzs) (by rw[h.shape.root_text];simp))
     exact absurd (by rw[hz,het]) (hn m hm)
   have hsk:=h.skips k hk hk0
   rw[if_neg (by simpa using hr.slot_ne k (hsi▸hk) hk0),hr.fails k (hsi▸hk) hk0]
   refine ih hsk.lt (hsk.suffix.trans hw) (by have:=hsk.shorter;omega) ?_
   intro m hm hms hlt
   by_cases hle:(text k).length≤(text m).length
   ·exact hde' m hm hms hle
   ·have hmk:=suffix_of_suffix_length_le hms hw (by omega)
    by_contra hso
    have:=hsk.between m b hm hmk hlt (by omega) (Option.isSome_iff_ne_none.2 hso)
    rw[hc]at this
    cases this
lemma Table.Represents.step_longest (hn:base.Longest text w n)(ha:(text n).length<a):
 ∃m,base.Longest text (w++[b]) m∧tb.step b a (slot n)=slot m:=
 hr.step_from h b a hn.lt hn.suffix ha fun m hm hms hlt=>by
  have:=hn.longest m hm hms
  omega
end
end Automaton
namespace Scan
namespace Progress
variable (c:SearchSetting)(b:Block)
def verifyCalls:List (Nat×Nat)→Progress→ResultCode×Progress
 | [],p=>(.success,p)
 | (k,offset)::calls,p=>
  match p.verify c b (c.set.table.pool.getD k default) offset with
  | (.success,p)=>verifyCalls calls p
  | failure=>failure
def callsOf (pool:Array Registration)(i:Nat)(list:List Nat):List (Nat×Nat):=
 (list.filter fun k=>(pool.getD k default).backtrack ≤ i).map fun k=>(k,i-(pool.getD k default).backtrack)
variable {c b}
lemma verifyCalls_append (l r:List (Nat×Nat))(p:Progress):verifyCalls c b (l++r) p=
  match verifyCalls c b l p with
  | (.success,p)=>verifyCalls c b r p
  | failure=>failure:=by
 induction l generalizing p with
 | nil=>rfl
 | cons x l _=>
  rw[cons_append,verifyCalls,verifyCalls]
  grind
lemma verifyList_eq (i a:Nat){f:Option Nat}{l:List Nat}
 (h:Trie.Chain c.set.table.pool f l)(ha:l.length≤a)(p:Progress):
 verifyList c b i a f p=verifyCalls c b (callsOf c.set.table.pool i l) p:=by
 induction l generalizing f a p with
 | nil=>
  obtain rfl:f=none:=h
  cases a<;>rfl
 | cons k l ih=>
  obtain⟨rfl,r,hr,hc⟩:=h
  cases a with
  | zero=>simp at ha
  | succ a=>
   have hg:c.set.table.pool.getD k default=r:=by
    rw[Array.getD_eq_getD_getElem?,hr]
    rfl
   rw[length_cons]at ha
   rw[verifyList,callsOf,filter_cons]
   simp only[hg]
   by_cases hb:r.backtrack ≤ i
   ·simp only[hb,if_true,decide_true,map_cons,verifyCalls,hg]
    rcases p.verify c b r (i-r.backtrack) with⟨code,p'⟩
    cases code with
    | success=>exact ih a hc (by omega) p'
    | _=>rfl
   ·simp only[hb]
    exact ih a hc (by omega) p
def callsAt (regs:List (Nat×AtomItem))(pool:Array Registration)(data:Bytes)(i:Nat):List (Nat×Nat):=
 callsOf pool i (gather regs (owned regs []) (data.list.take i))
open Automaton in
lemma read_from {base t:Trie}
 {slot:Nat→Nat}(hr:c.set.table.Represents t slot)(h:Trie.Linked regs text base t)
 (hp:∀x∈regs,∃n,n<base.states.size∧text n=x.2.atom.values)
 (hs:∀n,n<base.states.size→(text n).length≤atomLength)(k i:Nat)
 (hk:i+k=b.data.size)(hn:base.Longest text (b.data.list.take i) n)
 (s:Option Nat)(p:Progress):
 ((read c b i (slot n) s p).1,(read c b i (slot n) s p).2.2)=
  verifyCalls c b ((range' i (k+1)).flatMap (callsAt regs c.set.table.pool b.data)) p:=by
 have hl:=hr.list n (h.alike.size▸hn.lt)
 have hch:=h.list n hn.lt
 rw[←Trie.gather_longest hp hn,←hr.pool,←hl]at hch
 have hv:=verifyList_eq (b:=b) i c.set.table.pool.size hch
  (hch.length_le (Trie.gather_nodup (Sublist.refl _) _))
 change ∀p,_=verifyCalls c b (callsAt regs c.set.table.pool b.data i) p at hv
 induction k generalizing i n s p with
 | zero=>
  rw[read]
  rw[if_neg (by omega),hv]
  simp
 | succ k ih=>
  have hlt:i<b.data.size:=by omega
  -- One byte on: the next state is that of the longest suffix again.
  obtain⟨m,hm,hst⟩:=hr.step_longest h (b.data.byteAt i) stepAllowance hn
   (lt_of_le_of_lt (hs n hn.lt) (by decide))
  rw[←Bytes.take_succ_list _ _ hlt]at hm
  have hne:∀s p,_:=fun s p=>by
   have hl:=hr.list m (h.alike.size▸hm.lt)
   have hch:=h.list m hm.lt
   rw[←Trie.gather_longest hp hm,←hr.pool,←hl]at hch
   exact ih (i+1) (by omega) hm s p hl hch (verifyList_eq (b:=b) (i+1) c.set.table.pool.size hch
     (hch.length_le (Trie.gather_nodup (Sublist.refl _) _)))
  rw[read]
  rw[if_pos hlt,hst,range'_succ,flatMap_cons,verifyCalls_append]
  cases hf:c.set.table.lists.getD (slot n) none with
  | none=>
   rw[hf]at hch
   have hni:callsAt regs c.set.table.pool b.data i=[]:=by
    rw[callsAt,hch.eq_none_iff.1 rfl]
    rfl
   rw[hni]
   exact hne s p
  | some r=>
   rw[hf]at hv
   rw[hv]
   generalize verifyCalls c b (callsAt regs c.set.table.pool b.data i) p=out
   obtain⟨cd,p'⟩:=out
   by_cases hco:cd=.success
   ·subst hco
    exact hne _ p'
   ·cases cd<;>first | exact absurd rfl hco | rfl
lemma nodup_callsAt (regs:List (Nat×AtomItem))(p:Array Registration)
 (d:Bytes)(i:Nat):(callsAt regs p d i).Nodup:=
 ((gather_nodup (Sublist.refl _) _).filter _).map fun _ _ he=>congrArg Prod.fst he
section
variable {lists:List (Nat×List AtomItem)}(hd:Distances (registered lists))
 (hc:c.set.table=(ofLists lists).table)
include hd hc
lemma pool_registered {x:Nat×AtomItem}(hx:(registered lists)[k]?=some x):
 (c.set.table.pool.getD k default).string=x.1∧(c.set.table.pool.getD k default).backtrack=distance x.2∧
  (c.set.table.pool.getD k default).entry=x.2.entry:=by
 obtain⟨text,hb⟩:=ofLists_built lists
 have hl:=hb.linked hd
 obtain⟨slot,hr⟩:=hl.table
 rw[←hc]at hr
 have hp:=hr.pool▸hl.holds.2
 obtain⟨r,hr',h1,h2,h3⟩:=hp k x hx
 rw[Array.getD_eq_getD_getElem?,hr']
 exact⟨h1,h2,h3⟩
lemma mem_callsAt {d:Bytes}{i o:Nat}:
 (k,o)∈callsAt (registered lists) c.set.table.pool d i↔
  ∃x,(registered lists)[k]?=some x∧x.2.atom.values <:+ d.list.take i∧
   distance x.2 ≤ i∧o=i-distance x.2:=by
 simp only[callsAt,callsOf,mem_map,mem_filter,mem_gather_root,decide_eq_true_eq,Prod.mk.injEq]
 constructor
 ·rintro⟨m,⟨⟨x,hx,hs⟩,hle⟩,rfl,rfl⟩
  rw[(pool_registered hd hc hx).2.1]at hle⊢
  exact⟨x,hx,hs,hle,rfl⟩
 ·rintro⟨x,hx,hs,hle,rfl⟩
  refine⟨k,⟨⟨x,hx,hs⟩,?_⟩,rfl,?_⟩
  ·rw[(pool_registered hd hc hx).2.1]
   exact hle
  ·rw[(pool_registered hd hc hx).2.1]
lemma read_eq (hs:∀x∈registered lists,x.2.atom.length≤atomLength)
 (s:Option Nat)(p:Progress):
 ((read c b 0 0 s p).1,(read c b 0 0 s p).2.2)=verifyCalls c b ((range (b.data.size+1)).flatMap
   (callsAt (registered lists) c.set.table.pool b.data)) p:=by
 obtain⟨text,hb⟩:=ofLists_built lists
 have hl:=hb.linked hd
 obtain⟨slot,hr⟩:=hl.table
 rw[←hc]at hr
 have hn:=hb.toShape.longest_nil
 have hru:=read_from hr hl hb.present (fun n hn=>?_) b.data.size 0 (zero_add _) hn s p
 ·rw[hr.root,←range_eq_range']at hru
  exact hru
 by_cases h0:n=0
 ·rw[h0,hb.root_text]
  exact zero_le
 ·obtain⟨x,hx,hp⟩:=hb.needed hn h0
  have:=hp.length_le
  rw[values,length_map]at this
  exact this.trans (hs x hx)
end
open Automaton in
/-- A search verifies exactly the registered atoms that end at each position, at the offsets where
their strings would start, and each of them once. -/
theorem read_verifies_occurrences (lists:List (Nat × List AtomItem))
 (hshort:∀ x∈Trie.registered lists,x.2.atom.length ≤ Limits.atomLength)
 (hd:Trie.Distances (Trie.registered lists)) (c:SearchSetting)
 (hc:c.set.table = (Trie.ofLists lists).table) (b:Block) :
 ∃ calls:Nat → List (Nat × Nat),(∀ i,i ≤ b.data.size → (calls i).Nodup ∧ ∀ k offset,(k,offset) ∈ calls i ↔
   ∃ x,(Trie.registered lists)[k]? = some x ∧ x.2.atom.values <:+ b.data.list.take i ∧
    Trie.distance x.2 ≤ i ∧ offset = i-Trie.distance x.2) ∧
  (∀ (k:Nat) (x:Nat × AtomItem),(Trie.registered lists)[k]? = some x →
   (c.set.table.pool.getD k default).string = x.1 ∧
   (c.set.table.pool.getD k default).backtrack = Trie.distance x.2 ∧
   (c.set.table.pool.getD k default).entry = x.2.entry) ∧
  ∀ (slow:Option Nat) (p:Progress),((read c b 0 0 slow p).1,(read c b 0 0 slow p).2.2) =
    verifyCalls c b ((List.range (b.data.size+1)).flatMap calls) p :=
 ⟨callsAt (Trie.registered lists) c.set.table.pool b.data,
  fun i _=>⟨nodup_callsAt _ _ b.data i,fun _ _=>mem_callsAt hd hc⟩,
  fun _ _ hx=>pool_registered hd hc hx,read_eq hd hc hshort⟩
def nestedAtoms:List (Nat×List AtomItem):=
 [(0,[⟨ofBytes [97,98,99],1,⟨some 0,none⟩⟩,⟨ofBytes [98],0,⟨none,none⟩⟩]),
  (1,[⟨[],0,⟨some 4,none⟩⟩,⟨ofBytes [98,97],2,⟨none,some 9⟩⟩])]
open Automaton in
theorem read_verifies_nestedAtoms :
 let c:SearchSetting:=
  { set:={ (default:RuleSet) with table := (Trie.ofLists nestedAtoms).table }
    listener:=default,fast:=false,room:=512 }
 let b:Block:=⟨0,⟨#[98,97,98,99,98]⟩⟩
 (∀ x∈Trie.registered nestedAtoms,x.2.atom.length ≤ Limits.atomLength) ∧
 Trie.Distances (Trie.registered nestedAtoms) ∧
 ∃ calls:Nat → List (Nat × Nat),(0,0) ∈ calls 4 ∧ (2,4) ∈ calls 4 ∧ (1,3) ∉ calls 4 ∧
  ∀ (slow:Option Nat) (p:Progress),verifyCalls c b ((List.range 6).flatMap calls) p =
   ((read c b 0 0 slow p).1,(read c b 0 0 slow p).2.2) := by
 intro c b
 have hshort:∀ x∈Trie.registered nestedAtoms,x.2.atom.length≤Limits.atomLength:=by decide
 have hd:Trie.Distances (Trie.registered nestedAtoms):=⟨by decide,by decide⟩
 obtain⟨calls,hcalls,_,hread⟩:=read_verifies_occurrences nestedAtoms hshort hd c rfl b
 have h4:=(hcalls 4 (by decide)).2
 refine⟨hshort,hd,calls,(h4 0 0).mpr ?_,(h4 2 4).mpr ?_,fun h=>?_,fun slow p=>(hread slow p).symm⟩
 ·exact⟨_,rfl,by decide,by decide,by decide⟩
 ·exact⟨_,rfl,by decide,by decide,by decide⟩
 ·obtain⟨x,hx,hs,_⟩:=(h4 1 3).mp h
  obtain rfl:=Option.some.inj hx
  exact absurd hs (by decide)
open Automaton in
/-- A distance of a nonempty atom that is zero in sixteen bits hides the empty atom from the state
of the nonempty one. -/
theorem registrations_wrapped_distance :
 let lists:List (Nat × List AtomItem) :=
  [(0,[⟨Atom.ofBytes [1,2,3,4],65532,⟨none,none⟩⟩]),(1,[⟨[],0,⟨none,none⟩⟩])]
 let tb:=(Trie.ofLists lists).table
 let slot:=[1,2,3,4].foldl (fun s b=>tb.step b stepAllowance s) 0
 (Trie.registered lists)[1]?=some (1,⟨[],0,⟨none,none⟩⟩)∧
  Trie.distance ⟨[],0,⟨none,none⟩⟩ ≤ 4∧1∈tb.registrations 0∧
  1 ∉ tb.registrations slot:=by
 decide +kernel
end Progress
end Scan
end PatternScan
