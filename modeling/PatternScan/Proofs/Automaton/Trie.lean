import Mathlib
import PatternScan.Automaton.Trie
/-! Every state of a trie stands for the word that leads to it from the root. -/
namespace PatternScan.Automaton
open List Nat Function Atom
variable {text:Nat→List UInt8}{b:UInt8}{n:Nat}{w:List UInt8}{u:Trie}{l:List Nat}
lemma getD_modify {α:Type}(a:Array α)(i n:Nat)(f:α→α)(d:α)(h:n<a.size):
 (a.modify i f).getD n d=if i=n then f (a.getD n d) else a.getD n d:=by
 simp only[Array.getD_eq_getD_getElem?,Array.getElem?_modify,Array.getElem?_eq_getElem h]
 split<;>rfl
namespace Trie
variable {t:Trie}
structure Shape (t:Trie)(text:Nat→List UInt8):Prop where
 root_lt:0<t.states.size
 root_text:text 0=[]
 depth:∀{n},n<t.states.size→(t.state n).depth=(text n).length
 distinct:∀{n m},n<t.states.size→m<t.states.size→text n=text m→n=m
 below:∀{n c},c∈(t.state n).children→c<t.states.size∧n<c∧text c=text n++[(t.state c).input]
 above:∀{c},c<t.states.size→c≠0→∃n,c∈(t.state n).children
 once:∀n,(t.state n).children.Nodup
namespace Shape
section
variable (h:Shape t text)
include h
variable {c:Nat}
lemma parent_lt (hc:c∈(t.state n).children):n<t.states.size:=
 (h.below hc).2.1.trans (h.below hc).1
lemma length_child (hc:c∈(t.state n).children):(text c).length=(text n).length+1:=by
 rw[(h.below hc).2.2,length_append,length_singleton]
lemma parent_unique {m:Nat}(hcn:c∈(t.state n).children)(hcm:c∈(t.state m).children):n=m:=
 h.distinct (h.parent_lt hcn) (h.parent_lt hcm)
  (append_inj_left' ((h.below hcn).2.2.symm.trans (h.below hcm).2.2) rfl)
lemma eq_zero_of_text_nil (hn:n<t.states.size)(ht:text n=[]):n=0:=
 h.distinct hn h.root_lt (ht.trans h.root_text.symm)
lemma text_ne_nil (hn:n<t.states.size)(h0:n≠0):text n≠[]:=
 fun ht=>h0 (h.eq_zero_of_text_nil hn ht)
lemma exists_parent (hc:c<t.states.size)(ht:text c=w++[b]):
 ∃n,c∈(t.state n).children∧text n=w∧(t.state c).input=b:=by
 have h0:c≠0:=by
  rintro rfl
  rw[h.root_text]at ht
  simp at ht
 obtain⟨n,hn⟩:=h.above hc h0
 obtain⟨hte,hi⟩:=append_inj' ((h.below hn).2.2.symm.trans ht) rfl
 exact⟨n,hn,hte,singleton_inj.1 hi⟩
lemma exists_state_of_append (hn:n<t.states.size)(ht:text n=w++[b]):
 ∃m,m<t.states.size∧text m=w:=by
 obtain⟨m,hm,hte,-⟩:=h.exists_parent hn ht
 exact⟨m,h.parent_lt hm,hte⟩
lemma child?_eq_some_iff (hn:n<t.states.size):
 t.child? n b=some c↔c<t.states.size∧text c=text n++[b]:=by
 have hfn:∀{d},t.child? n b=some d→d<t.states.size∧text d=text n++[b]:=by
  intro d hd
  obtain⟨hlt,-,ht⟩:=h.below (mem_of_find?_eq_some hd)
  have hi:=find?_some hd
  rw[beq_iff_eq]at hi
  exact⟨hlt,hi▸ht⟩
 refine⟨hfn,fun⟨hc,ht⟩=>?_⟩
 obtain⟨m,hm,hte,hi⟩:=h.exists_parent hc ht
 obtain rfl:=h.distinct (h.parent_lt hm) hn hte
 cases hf:t.child? m b with
 | none=>exact absurd (beq_iff_eq.2 hi) (find?_eq_none.1 hf c hm)
 | some d=>rw[h.distinct (hfn hf).1 hc ((hfn hf).2.trans ht.symm)]
lemma child?_eq_none_iff (hn:n<t.states.size):
 t.child? n b=none↔∀c,c<t.states.size→text c≠text n++[b]:=by
 simp only[Option.eq_none_iff_forall_ne_some,ne_eq,h.child?_eq_some_iff hn,not_and]
lemma congr (hs:u.states.size=t.states.size)
 (hst:∀n,(u.state n).input=(t.state n).input∧(u.state n).depth=(t.state n).depth∧(u.state n).children=(t.state n).children):
 Shape u text:=by
 constructor
 all_goals try simp only[hs,hst]
 exacts [h.root_lt,h.root_text,h.depth,h.distinct,h.below,h.above,h.once]
lemma length_le (hn:n<t.states.size):(text n).length≤n:=by
 induction n using Nat.strong_induction_on with
 | _ n ih=>
  by_cases h0:n=0
  ·rw[h0,h.root_text]
   rfl
  ·obtain⟨m,hm⟩:=h.above hn h0
   have hlt:=(h.below hm).2.1
   have:=ih m hlt (h.parent_lt hm)
   rw[h.length_child hm]
   omega
end
end Shape
lemma state_of_size_le (t:Trie)(n:Nat)(h:t.states.size≤n):t.state n=default:=by simp[state,h]
variable {regs:List (Nat×AtomItem)}
lemma state_modify (hn:n<t.states.size)(p:Array Registration)(f:State→State)
 (m:Nat):(⟨t.states.modify n f,p⟩:Trie).state m=
  if n=m then f (t.state n) else t.state m:=by
 by_cases hm:m<t.states.size
 ·refine (getD_modify t.states n m f default hm).trans (ite_congr rfl (fun h=>?_) fun _=>rfl)
  rw[h,state]
 ·rw[if_neg (by omega),state_of_size_le t m (not_lt.1 hm),state_of_size_le _ m (by simpa using hm)]
lemma state_child (hn:n<t.states.size)(hc:t.child? n b=none)(m:Nat):(t.child n b).2.state m=
  if n=m then {t.state n with children:=t.states.size::(t.state n).children}
  else if m=t.states.size then {input:=b,depth:=(t.state n).depth+1}
  else t.state m:=by
 have hp:∀k,(⟨t.states.push {input:=b,depth:=(t.state n).depth+1},t.pool⟩:Trie).state k=
  if k=t.states.size then {input:=b,depth:=(t.state n).depth+1} else t.state k:=by
  intro k
  rw[state,Array.getD_eq_getD_getElem?,Array.getElem?_push]
  split
  ·rfl
  ·rw[state,Array.getD_eq_getD_getElem?]
 simp only[child,hc]
 rw[state_modify (t:=⟨t.states.push _,t.pool⟩) (by simp;omega),hp,hp,if_neg hn.ne]

/-- Going to a child reaches a state for the longer word, and disturbs no list. -/
structure Reaches (t:Trie)(text:Nat→List UInt8)(w:List UInt8)(n:Nat)(t':Trie)
 (text':Nat→List UInt8):Prop where
 shape:Shape t' text'
 lt:n<t'.states.size
 word:text' n=w
 size_le:t.states.size≤t'.states.size
 old:∀{m},m<t.states.size→text' m=text m
 pool:t'.pool=t.pool
 links:∀m,(t'.state m).first=(t.state m).first∧(t'.state m).failure=(t.state m).failure
 fresh:∀{m},t.states.size ≤ m→m<t'.states.size→text' m <+: w
section
variable (h:Shape t text)
include h
lemma Reaches.refl (hn:n<t.states.size):Reaches t text (text n) n t text:=
 ⟨h,hn,rfl,le_rfl,fun _=>rfl,rfl,fun _=>⟨rfl,rfl⟩,fun h1 h2=>absurd h2 h1.not_gt⟩
lemma child_reaches (b:UInt8)(hn:n<t.states.size):
 ∃text',Reaches t text (text n++[b]) (t.child n b).1 (t.child n b).2 text':=by
 cases hc:t.child? n b with
 | some c=>
  obtain⟨hlt,ht⟩:=(h.child?_eq_some_iff hn).1 hc
  rw[show t.child n b=(c,t) by simp[child,hc]]
  exact⟨text,ht ▸ .refl h hlt⟩
 | none=>
  have hs:(t.child n b).2.states.size=t.states.size+1:=by simp[child,hc]
  have hfs:(t.child n b).1=t.states.size:=by simp[child,hc]
  have hp:(t.child n b).2.pool=t.pool:=by simp[child,hc]
  have hst:=state_child hn hc
  have hno:=(h.child?_eq_none_iff hn).1 hc
  have hsa:∀{m},m<t.states.size→((t.child n b).2.state m).depth=(t.state m).depth∧
   ((t.child n b).2.state m).input=(t.state m).input:=by
   grind
  have hf:(t.child n b).2.state t.states.size={input:=b,depth:=(t.state n).depth+1}:=by
   rw[hst,if_neg hn.ne,if_pos rfl]
  have hem:(t.state t.states.size).children=[]:=by
   rw[state_of_size_le t _ le_rfl]
   rfl
  have hme:∀{m c},c∈((t.child n b).2.state m).children↔c∈(t.state m).children∨c=t.states.size∧m=n:=by grind
  have hold:∀{m},m<t.states.size→update text t.states.size (text n++[b]) m=text m:=
   fun hm=>update_of_ne hm.ne ..
  have hnw:update text t.states.size (text n++[b]) t.states.size=text n++[b]:=
   update_self ..
  generalize update text t.states.size (text n++[b])=text' at hold hnw
  rw[hfs]
  refine⟨text',⟨by omega,by rw[hold h.root_lt,h.root_text],?_,?_,?_,?_,?_⟩,by omega,hnw,by omega,hold,hp,?_,?_⟩
  ·intro m hm
   rcases Nat.lt_or_eq_of_le (le_of_lt_succ (hs▸hm)) with hm|rfl
   ·rw[hold hm,(hsa hm).1,h.depth hm]
   ·rw[hf,hnw,length_append,←h.depth hn]
    rfl
  ·intro k m hk hm he
   rcases Nat.lt_or_eq_of_le (le_of_lt_succ (hs▸hk)) with hk|rfl <;>
    rcases Nat.lt_or_eq_of_le (le_of_lt_succ (hs▸hm)) with hm|rfl
   ·rw[hold hk,hold hm]at he
    exact h.distinct hk hm he
   ·rw[hold hk,hnw]at he
    exact absurd he (hno k hk)
   ·rw[hold hm,hnw]at he
    exact absurd he.symm (hno m hm)
   ·rfl
  ·intro m c hcm
   rcases hme.1 hcm with hcm|⟨rfl,rfl⟩
   ·obtain⟨h1,h2,h3⟩:=h.below hcm
    exact⟨by omega,h2,by rw[hold h1,hold (h2.trans h1),h3,(hsa h1).2]⟩
   ·exact⟨by omega,hn,by rw[hnw,hold hn,hf]⟩
  ·intro c hc0 hne
   rcases Nat.lt_or_eq_of_le (le_of_lt_succ (hs▸hc0)) with hlt|rfl
   ·obtain⟨m,hm⟩:=h.above hlt hne
    exact⟨m,hme.2 (.inl hm)⟩
   ·exact⟨n,hme.2 (.inr ⟨rfl,rfl⟩)⟩
  ·intro m
   rw[hst]
   split
   ·exact nodup_cons.2 ⟨fun hme=>lt_irrefl _ (h.below hme).1,h.once n⟩
   ·split
    ·exact nodup_nil
    ·exact h.once m
  ·intro m
   rw[hst]
   split
   ·next he=>exact he▸⟨rfl,rfl⟩
   ·split
    ·next hm=>rw[hm,state_of_size_le t _ le_rfl];exact⟨rfl,rfl⟩
    ·exact⟨rfl,rfl⟩
  ·intro m h1 h2
   obtain rfl:m=t.states.size:=by omega
   rw[hnw]
end
lemma Reaches.trans {t u v:Trie}{f g k:Nat→List UInt8}{w x:List UInt8}{m:Nat}
 (h:Reaches t f w n u g)(h':Reaches u g (w++x) m v k):Reaches t f (w++x) m v k where
 shape:=h'.shape
 lt:=h'.lt
 word:=h'.word
 size_le:=h.size_le.trans h'.size_le
 old hi:=(h'.old (hi.trans_le h.size_le)).trans (h.old hi)
 pool:=h'.pool.trans h.pool
 links i:=⟨(h'.links i).1.trans (h.links i).1,(h'.links i).2.trans (h.links i).2⟩
 fresh:=by
  intro i h1 h2
  by_cases hi:i<u.states.size
  ·rw[h'.old hi]
   exact (h.fresh h1 hi).trans (prefix_append w x)
  ·exact h'.fresh (by omega) h2
lemma foldl_child_reaches (h:Shape t text)(a:Atom)(hn:n<t.states.size):
 ∃text',Reaches t text (text n++a.values) (a.foldl (fun x b=>x.2.child x.1 b.value) (n,t)).1
  (a.foldl (fun x b=>x.2.child x.1 b.value) (n,t)).2 text':=by
 induction a generalizing n t text with
 | nil=>exact⟨text,by simpa[values]using Reaches.refl h hn⟩
 | cons b a ih=>
  obtain⟨f,hf⟩:=child_reaches h b.value hn
  obtain⟨g,hg⟩:=ih hf.shape hf.lt
  rw[hf.word]at hg
  exact⟨g,by simpa[values]using hf.trans hg⟩
def Chain (pool:Array Registration):Option Nat→List Nat→Prop
 | p,[]=>p=none
 | p,k::ks=>p=some k∧∃r,pool[k]?=some r∧Chain pool r.next ks
lemma Chain.congr {a b:Array Registration}{p:Option Nat}(h:Chain a p l)
 (hab:∀k r,k∈l→a[k]?=some r→∃s,b[k]?=some s∧s.next=r.next):
 Chain b p l:=by
 induction l generalizing p with
 | nil=>exact h
 | cons k _ ih=>
  obtain⟨hp,r,hr,hc⟩:=h
  obtain⟨s,hs,hn⟩:=hab k r (mem_cons_self ..) hr
  refine⟨hp,s,hs,?_⟩
  rw[hn]
  exact ih hc fun i r hi=>hab i r (mem_cons_of_mem _ hi)
lemma Chain.push {a:Array Registration}{p:Option Nat}{l:List Nat}(h:Chain a p l)
 (r:Registration):Chain (a.push r) p l:=by
 refine h.congr fun k s _ hs=>⟨s,?_,rfl⟩
 grind
def owned (regs:List (Nat×AtomItem))(w:List UInt8):List Nat:=
 ((range regs.length).filter fun k=>(regs[k]?.map (·.2.atom.values))=some w).reverse
lemma mem_owned {k:Nat}:k∈owned regs w↔regs[k]?.map (·.2.atom.values)=some w:=by
 simp only[owned,mem_reverse,mem_filter,mem_range,decide_eq_true_eq,and_iff_right_iff_imp]
 intro h
 by_contra hk
 simp[getElem?_eq_none (not_lt.1 hk)]at h
lemma owned_nodup (regs:List (Nat×AtomItem))(w:List UInt8):(owned regs w).Nodup:=
 nodup_reverse.2 (nodup_range.filter _)
lemma owned_append_singleton (regs:List (Nat×AtomItem))(x:Nat×AtomItem)(w:List UInt8):owned (regs++[x]) w=
  if x.2.atom.values=w then regs.length::owned regs w else owned regs w:=by
 have hold:(range regs.length).filter (fun k=>
  ((regs++[x])[k]?.map (·.2.atom.values))=some w)=
  (range regs.length).filter (fun k=>(regs[k]?.map (·.2.atom.values))=some w):=by
  refine filter_congr fun k hk=>?_
  rw[getElem?_append_left (mem_range.1 hk)]
 rw[owned,length_append,length_singleton,range_succ,filter_append,hold]
 by_cases h:x.2.atom.values=w
 ·simp[owned,h]
 ·simp[owned,h]

/-- The distance from the start of the string to the end of the atom, in sixteen bits. -/
def distance (x:AtomItem):Nat:=(x.atom.length+x.backtrack)%65536

/-- The trie holds these registrations, and nothing has been linked. -/
structure Built (regs:List (Nat×AtomItem))(t:Trie)(text:Nat→List UInt8):Prop extends
 Shape t text where
 pool_size:t.pool.size=regs.length
 entry:∀(k:Nat)(x:Nat×AtomItem),regs[k]?=some x→∃r:Registration,t.pool[k]?=some r∧r.string=x.1∧
  r.backtrack=distance x.2∧r.entry=x.2.entry
 chain:∀{n},n<t.states.size→Chain t.pool (t.state n).first (owned regs (text n))
 failure:∀n,(t.state n).failure=0
 present:∀x∈regs,∃n,n<t.states.size∧text n=x.2.atom.values
 needed:∀{n},n<t.states.size→n≠0→∃x∈regs,text n <+: x.2.atom.values
lemma built_empty:Built [] {} (fun _=>[]):=by
 have hs:∀n,({}:Trie).state n={input:=0,depth:=0}:=fun n=>by cases n<;>rfl
 refine⟨⟨Nat.one_pos,rfl,?_,?_,?_,?_,?_⟩,rfl,?_,?_,?_,?_,?_⟩
 all_goals simp[hs,Chain,owned]
lemma register_eq (string:Nat){i:AtomItem}
 (h:i.atom.foldl (fun x b=>x.2.child x.1 b.value) (0,t)=(n,u)):
 ∃r:Registration,t.register string i=⟨u.states.modify n fun s=>{s with first:=some u.pool.size},u.pool.push r⟩∧
  r.string=string∧r.backtrack=((u.state n).depth+i.backtrack)%65536∧
  r.entry=i.entry∧r.next=(u.state n).first:=by
 unfold register
 generalize hx:i.atom.foldl _ (0,t)=x
 obtain rfl:x=(n,u):=hx.symm.trans h
 exact⟨_,rfl,rfl,rfl,rfl,rfl⟩
section
variable (h:Built regs t text)(string:Nat)
include h string
lemma Built.register (it:AtomItem):
 ∃text',Built (regs++[(string,it)]) (t.register string it) text':=by
 obtain⟨f,hf⟩:=foldl_child_reaches h.toShape it.atom h.root_lt
 rw[h.root_text,nil_append]at hf
 generalize he:it.atom.foldl (fun x b=>x.2.child x.1 b.value) (0,t)=x at hf
 obtain⟨n,u⟩:=x
 obtain⟨r,hre,hstr,hb,hen,hn⟩:=register_eq string he
 have hst:=state_modify hf.lt (u.pool.push r) fun s=>{s with first:=some u.pool.size}
 have hs:(⟨u.states.modify n fun s=>{s with first:=some u.pool.size},u.pool.push r⟩ :
  Trie).states.size=u.states.size:=Array.size_modify
 have hps:u.pool.size=regs.length:=by rw[hf.pool,h.pool_size]
 have hl:(u.pool.push r)[regs.length]?=some r:=by rw[←hps,Array.getElem?_push_size]
 -- The lists as they were before the new registration.
 have hch:∀{m},m<u.states.size→Chain u.pool (u.state m).first (owned regs (f m)):=by
  intro m hm
  rw[(hf.links m).1,hf.pool]
  by_cases hmt:m<t.states.size
  ·rw[hf.old hmt]
   exact h.chain hmt
  have:owned regs (f m)=[]:=by
   refine eq_nil_iff_forall_not_mem.2 fun k hk=>?_
   obtain⟨x,hx,hv⟩:=Option.map_eq_some_iff.1 (mem_owned.1 hk)
   obtain⟨i,hi,hv'⟩:=h.present x (mem_of_getElem? hx)
   have:=hf.shape.distinct (hi.trans_le hf.size_le) hm (by rw[hf.old hi,hv',hv])
   omega
  rw[this,state_of_size_le t m (by omega)]
  rfl
 rw[hre]
 refine⟨f,⟨hf.shape.congr hs fun m=>?_,?_,?_,?_,?_,?_,?_⟩⟩
 ·grind
 ·simp[hps]
 ·intro k x hx
  by_cases hk:k<regs.length
  ·rw[getElem?_append_left hk]at hx
   obtain⟨r',hr,hx'⟩:=h.entry k x hx
   refine⟨r',?_,hx'⟩
   rw[Array.getElem?_push,if_neg (by omega),hf.pool]
   exact hr
  obtain rfl:k=regs.length:=by
   have:=(List.getElem?_eq_some_iff.1 hx).1
   simp at this
   omega
  rw[getElem?_concat_length,Option.some_inj]at hx
  subst hx
  refine⟨r,hl,hstr,?_,hen⟩
  rw[hb,hf.shape.depth hf.lt,hf.word,values,length_map,distance]
 ·intro m hm
  rw[hs]at hm
  rw[hst,owned_append_singleton,←hf.word]
  by_cases hnm:n=m
  ·subst hnm
   rw[if_pos rfl,if_pos rfl]
   exact⟨congrArg some hps,r,hl,hn▸(hch hm).push _⟩
  ·rw[if_neg hnm,if_neg fun hw=>hnm (hf.shape.distinct hf.lt hm hw)]
   exact (hch hm).push _
 ·intro m
  have hm:=(hf.links m).2.trans (h.failure m)
  rw[hst]
  split
  ·next he=>exact he▸hm
  ·exact hm
 ·intro x hx
  rw[hs]
  rcases mem_append.1 hx with hx|hx
  ·obtain⟨m,hm,ht⟩:=h.present x hx
   exact⟨m,hm.trans_le hf.size_le,by rw[hf.old hm,ht]⟩
  ·rw[mem_singleton.1 hx]
   exact⟨n,hf.lt,hf.word⟩
 intro m hm h0
 rw[hs]at hm
 by_cases hmt:m<t.states.size
 ·obtain⟨x,hx,hp⟩:=h.needed hmt h0
  exact⟨x,mem_append_left _ hx,hf.old hmt▸hp⟩
 ·exact⟨_,mem_append_right _ (mem_singleton_self _),hf.fresh (by omega) hm⟩
lemma Built.add (i:List AtomItem):
 ∃text',Built (regs++i.map fun x=>(string,x)) (t.add string i) text':=by
 induction i generalizing regs t text with
 | nil=>exact⟨text,by simpa[Trie.add]using h⟩
 | cons x _ ih=>
  obtain⟨f,hf⟩:=h.register string x
  obtain⟨g,hg⟩:=ih hf
  exact⟨g,by simpa[Trie.add]using hg⟩
end
def ofLists (lists:List (Nat×List AtomItem)):Trie:=
 lists.foldl (fun t x=>t.add x.1 x.2) {}
def registered (lists:List (Nat×List AtomItem)):List (Nat×AtomItem):=
 lists.flatMap fun x=>x.2.map fun item=>(x.1,item)
lemma ofLists_built (ls:List (Nat×List AtomItem)):∃text,Built (registered ls) (ofLists ls) text:=by
 induction ls using reverseRecOn with
 | nil=>exact⟨_,built_empty⟩
 | append_singleton _ x ih=>
  obtain⟨f,hf⟩:=ih
  obtain⟨g,hg⟩:=hf.add x.1 x.2
  exact⟨g,by simpa[ofLists,registered]using hg⟩
namespace Shape
variable {d:Nat}
lemma exists_length (h:Shape t text)(hn:n<t.states.size)
 (hd:d≤(text n).length):∃m,m<t.states.size∧(text m).length=d:=by
 generalize hk:(text n).length-d=k
 induction k generalizing n with
 | zero=>exact⟨n,hn,by omega⟩
 | succ k ih=>
  have hne:text n≠[]:=by
   intro h0
   rw[h0]at hk
   simp at hk
  obtain⟨m,hm,ht⟩:=h.exists_state_of_append hn (dropLast_append_getLast hne).symm
  have hl:(text m).length=(text n).length-1:=by rw[ht,length_dropLast]
  exact ih hm (by omega) (by omega)
structure Layer (t:Trie)(text:Nat→List UInt8)(d:Nat)(l:List Nat):Prop where
 nodup:l.Nodup
 mem_iff:∀n,n∈l↔n<t.states.size∧(text n).length=d
lemma Layer.pairwise (hl:Layer t text d l):l.Pairwise fun n m=>(text n).length≤(text m).length:=
 pairwise_of_forall_mem_list fun n hn m hm=>by rw[((hl.mem_iff n).1 hn).2,((hl.mem_iff m).1 hm).2]
lemma layer_children (h:Shape t text)(hl:Layer t text d l):
 Layer t text (d+1) (l.flatMap fun n=>(t.state n).children) where
 nodup:=by
  rw[nodup_flatMap]
  exact⟨fun n _=>h.once n,hl.nodup.imp fun hne c hcn hcm=>hne (h.parent_unique hcn hcm)⟩
 mem_iff:=by
  intro c
  rw[mem_flatMap]
  constructor
  ·rintro⟨n,hn,hc⟩
   exact⟨(h.below hc).1,by rw[h.length_child hc,((hl.mem_iff n).1 hn).2]⟩
  rintro⟨hlt,hd⟩
  have h0:c≠0:=by
   rintro rfl
   rw[h.root_text]at hd
   simp at hd
  obtain⟨n,hc⟩:=h.above hlt h0
  refine⟨n,(hl.mem_iff n).2 ⟨h.parent_lt hc,?_⟩,hc⟩
  have:=h.length_child hc
  omega
lemma levels_spec (h:Shape t text)(k:Nat)(hl:Layer t text d l):(t.levels k l).Nodup∧
 (∀n,n∈t.levels k l↔n<t.states.size∧d≤(text n).length∧(text n).length≤d+k)∧
 (t.levels k l).Pairwise fun n m=>(text n).length≤(text m).length:=by
 induction k generalizing d l with
 | zero=>
  refine⟨hl.nodup,fun n=>?_,?_⟩
  ·rw[levels,hl.mem_iff]
   omega
  ·exact hl.pairwise
 | succ k ih=>
  rw[levels]
  split
  ·rename_i he
   rw[List.isEmpty_iff]at he
   subst he
   refine⟨nodup_nil,fun n=>?_,Pairwise.nil⟩
   simp only[not_mem_nil,false_iff]
   rintro⟨hn,hd,_⟩
   obtain⟨m,hm,hmd⟩:=h.exists_length hn hd
   exact not_mem_nil ((hl.mem_iff m).2 ⟨hm,hmd⟩)
  obtain⟨h1,h2,h3⟩:=ih (h.layer_children hl)
  refine⟨nodup_append.2 ⟨hl.nodup,h1,?_⟩,fun n=>?_,pairwise_append.2 ⟨?_,h3,?_⟩⟩
  ·intro n hn m hm he
   have hd:=((hl.mem_iff n).1 hn).2
   have hd':=((h2 m).1 hm).2.1
   rw[he]at hd
   omega
  ·rw[mem_append,hl.mem_iff,h2]
   omega
  ·exact hl.pairwise
  ·intro n hn m hm
   have hd:=((hl.mem_iff n).1 hn).2
   have hd':=((h2 m).1 hm).2.1
   omega
lemma order_spec (h:Shape t text):t.order.Nodup∧(∀n,n∈t.order↔n<t.states.size∧n≠0)∧
 t.order.Pairwise fun n m=>(text n).length≤(text m).length:=by
 have hr:Layer t text 0 [0]:=by
  refine⟨nodup_singleton 0,fun n=>?_⟩
  rw[mem_singleton]
  constructor
  ·rintro rfl
   exact⟨h.root_lt,by rw[h.root_text];rfl⟩
  ·rintro⟨hn,hl⟩
   exact h.eq_zero_of_text_nil hn (length_eq_zero_iff.1 hl)
 have hla:=h.layer_children hr
 rw[flatMap_singleton]at hla
 obtain⟨h1,h2,h3⟩:=h.levels_spec t.states.size hla
 refine⟨h1,fun n=>?_,h3⟩
 rw[order,h2]
 constructor
 ·rintro⟨hn,hl,_⟩
  refine⟨hn,?_⟩
  rintro rfl
  rw[h.root_text]at hl
  simp at hl
 ·rintro⟨hn,h0⟩
  have:=length_pos_iff.2 (h.text_ne_nil hn h0)
  have:=h.length_le hn
  exact⟨hn,by omega,by omega⟩
lemma order_split (h:Shape t text){r:List Nat}(ho:t.order=l++n::r):
 n<t.states.size∧n≠0∧n∉l∧(∀m∈l,m<t.states.size∧m≠0∧(text m).length≤(text n).length)∧
 ∀m,m<t.states.size→m≠0→(text m).length<(text n).length→m∈l:=by
 obtain⟨h1,h2,h3⟩:=h.order_spec
 rw[ho]at h1 h2 h3
 have hn:=(h2 n).1 (by simp)
 rw[pairwise_append]at h3
 refine⟨hn.1,hn.2,?_,?_,?_⟩
 ·intro hl
  exact (nodup_append.1 h1).2.2 n hl n (by simp) rfl
 ·intro m hm
  have:=(h2 m).1 (mem_append_left _ hm)
  exact⟨this.1,this.2,h3.2.2 m hm n (by simp)⟩
 intro m hm h0 hlt
 rcases mem_append.1 ((h2 m).2 ⟨hm,h0⟩) with hl|hr
 ·exact hl
 ·rcases mem_cons.1 hr with rfl|hr
  ·omega
  ·have:=(pairwise_cons.1 h3.2.1).1 m hr
   omega
end Shape
end Trie
end PatternScan.Automaton