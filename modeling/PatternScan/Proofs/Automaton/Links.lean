import PatternScan.Proofs.Automaton.Trie
/-! The failure state of a state is the longest proper suffix that the trie has. -/
namespace PatternScan.Automaton
open List
variable {v:List UInt8}{n:Nat}
namespace Trie
variable {regs:List (Nat×AtomItem)}{rest:List Nat}{k:Nat}{w:List UInt8}
def gather (regs:List (Nat×AtomItem))(rest:List Nat):List UInt8→List Nat
 | []=>rest
 | b::w=>owned regs (b::w)++gather regs rest w
lemma gather_append (regs:List (Nat×AtomItem))(l r:List Nat)(w:List UInt8):
 gather regs (l++r) w=gather regs l w++r:=by
 induction w with
 | nil=>rfl
 | cons b w ih=>simp[gather,ih]
lemma gather_eq (regs:List (Nat×AtomItem))(rest:List Nat)(w:List UInt8):
 gather regs rest w=gather regs [] w++rest:=
 gather_append regs [] rest w
lemma mem_gather:k∈gather regs rest w↔(∃v,v≠[]∧v <:+ w∧k∈owned regs v)∨k∈rest:=by
 induction w with
 | nil=>simp +contextual [gather]
 | cons b w ih=>
  rw[gather,mem_append,ih,←or_assoc]
  refine or_congr_left ⟨?_,?_⟩
  ·grind
  ·rintro⟨v,hne,hv,hk⟩
   rcases suffix_cons_iff.1 hv with rfl|hv
   ·exact Or.inl hk
   ·exact Or.inr ⟨v,hne,hv,hk⟩
lemma owned_unique (hv:k∈owned regs v)(hw:k∈owned regs w):v=w:=by
 rw[mem_owned]at hv hw
 exact Option.some.inj (hv.symm.trans hw)
lemma not_mem_gather (hr:rest.Sublist (owned regs []))
 (hk:k∈owned regs v)(hv:v≠[])(hw:¬v <:+ w):
 k∉gather regs rest w:=by
 rw[mem_gather]
 rintro (⟨x,-,hx,hkx⟩|hkr)
 ·exact hw (owned_unique hk hkx▸hx)
 ·exact hv (owned_unique hk (hr.subset hkr))
lemma gather_nodup (hr:rest.Sublist (owned regs []))(w:List UInt8):(gather regs rest w).Nodup:=by
 induction w with
 | nil=>exact hr.nodup (owned_nodup regs [])
 | cons b w ih=>
  refine nodup_append.2 ⟨owned_nodup regs _,ih,?_⟩
  rintro k hk m hm rfl
  exact not_mem_gather hr hk (cons_ne_nil _ _) (fun h=>by simpa using h.length_le) hm
lemma gather_skip (rest:List Nat)(v w:List UInt8)(h:∀x,x <:+ v++w→w.length<x.length → owned regs x=[]):
 gather regs rest (v++w)=gather regs rest w:=by
 induction v with
 | nil=>rfl
 | cons b v ih=>
  have hb:owned regs (b::(v++w))=[]:=h _ suffix_rfl (by simp)
  rw[cons_append,gather,hb]
  exact ih fun x hx=>h x (hx.trans (suffix_cons b _))
namespace Chain
variable {pool:Array Registration}{p q:Option Nat}{l:List Nat}
section
variable (h:Chain pool p l)
include h
lemma lt_size (hk:k∈l):k<pool.size:=by
 induction l generalizing p with
 | nil=>exact absurd hk not_mem_nil
 | cons i l _=>
  obtain⟨_,r,hr,hc⟩:=h
  grind
lemma length_le (hd:l.Nodup):l.length≤pool.size:=by
 have hlt:l ⊆ range pool.size:=fun k hk=>mem_range.2 (h.lt_size hk)
 have:=hd.subperm hlt
 simpa using this.length_le
lemma eq_none_iff:p=none↔l=[]:=by
 cases l with
 | nil=>exact⟨fun _=>rfl,fun _=>h⟩
 | cons k l=>simp[h.1]
lemma eq_append_of_next_none (hk:k∈l)(hn:(pool.getD k default).next=none):∃l',l=l'++[k]:=by
 induction l generalizing p with
 | nil=>exact absurd hk not_mem_nil
 | cons i l ih=>
  obtain⟨_,r,hr,hc⟩:=h
  by_cases hki:k=i
  ·subst hki
   simp only[Array.getD_eq_getD_getElem?,hr]at hn
   rw[hc.eq_none_iff.1 hn]
   exact⟨[],rfl⟩
  ·obtain⟨l',hl⟩:=ih hc (mem_of_ne_of_mem hki hk)
   exact⟨i::l',by rw[hl,cons_append]⟩
end
lemma last_eq (t:Trie)(a:Nat)
 (h:Chain t.pool (some n) (l++[k]))(ha:l.length≤a):t.last a n=k:=by
 induction l generalizing n a with
 | nil=>
  obtain⟨hn,r,hr,hc⟩:=h
  cases hn
  cases a with
  | zero=>rfl
  | succ a=>simp[last,hr,show r.next=none from hc]
 | cons i l ih=>
  obtain⟨hn,r,hr,hc⟩:=h
  cases hn
  cases a with
  | zero=>simp at ha
  | succ a=>
   cases hl:r.next with
   | none=>
    rw[hl]at hc
    exact absurd (hc.eq_none_iff.1 rfl) (by simp)
   | some m=>
    rw[hl]at hc
    simp only[last,Array.getD_eq_getD_getElem?,hr,Option.getD_some,hl]
    exact ih a hc (by simpa using ha)
lemma last_eq_of_nodup {t:Trie}(h:Chain t.pool (some n) (l++[k]))(hd:(l++[k]).Nodup):
 t.last t.pool.size n=k:=by
 have hl:=h.length_le hd
 refine last_eq t t.pool.size h ?_
 simp at hl
 omega
lemma next_last (h:Chain pool p (l++[k])):(pool.getD k default).next=none:=by
 induction l generalizing p with
 | nil=>
  obtain⟨_,r,hr,hc⟩:=h
  rw[Array.getD_eq_getD_getElem?,hr]
  exact hc
 | cons i l ih=>
  obtain⟨_,r,_,hc⟩:=h
  exact ih hc
lemma modify_of_not_mem (h:Chain pool p l)(f:Registration→Registration)(hk:k∉l):Chain (pool.modify k f) p l:=by
 refine h.congr fun i r hi hr=>⟨r,?_,rfl⟩
 grind
lemma splice (h:Chain pool p (l++[k]))(hd:(l++[k]).Nodup)(hr:Chain pool q rest)(hk:k∉rest):
 Chain (pool.modify k fun r=>{r with next:=q}) p (l++[k]++rest):=by
 induction l generalizing p with
 | nil=>
  obtain⟨hp,r,hpo,_⟩:=h
  refine⟨hp,{r with next:=q},?_,hr.modify_of_not_mem _ hk⟩
  rw[Array.getElem?_modify,if_pos rfl,hpo]
  rfl
 | cons i l ih=>
  obtain⟨hp,r,hpo,hc⟩:=h
  rw[cons_append,nodup_cons]at hd
  have hki:k≠i:=by
   rintro rfl
   exact hd.1 (by simp)
  refine⟨hp,r,?_,ih hc hd.2⟩
  rw[Array.getElem?_modify,if_neg hki]
  exact hpo
end Chain
end Trie
end PatternScan.Automaton
namespace PatternScan.Automaton
open Set
variable {m k:Nat}{own:List Nat}
namespace Trie
variable {regs:List (Nat×AtomItem)}{text:Nat→List UInt8}{t:Trie}{c:Nat}
/-- The state of the longest proper suffix, among the first `size` states. -/
structure Fails (size:Nat)(text:Nat→List UInt8)(n f:Nat):Prop where
 lt:f<size
 suffix:text f <:+ text n
 shorter:(text f).length<(text n).length
 longest:∀{m},m<size→text m <:+ text n→(text m).length<(text n).length→(text m).length≤(text f).length
variable {f n:Nat}{pool:Array Registration}
lemma Fails.suffix_of {s:Nat}(h:Fails s text n f)(hm:m<s)(hs:text m <:+ text n)
 (hl:(text m).length<(text n).length):text m <:+ text f:=
 List.suffix_of_suffix_length_le hs h.suffix (h.longest hm hs hl)
lemma findFailure_spec (h:Shape t text)(b:UInt8)(a:Nat)(hm:m<t.states.size)(ha:(text m).length<a)
 (hf:∀x,x<t.states.size→x≠0→(text x).length≤(text m).length→
  Fails t.states.size text x (t.state x).failure):
 (∀c,t.findFailure b a m=some c→c<t.states.size∧∃x,text c=x++[b]∧x <:+ text m∧
  ∀d y,d<t.states.size→text d=y++[b]→y <:+ text m→y.length≤x.length)∧
 (t.findFailure b a m=none→∀d y,d<t.states.size→text d=y++[b]→¬y <:+ text m):=by
 induction a generalizing m with
 | zero=>exact absurd ha (Nat.not_lt_zero _)
 | succ a ih=>
  rw[findFailure]
  cases hc:t.child? m b with
  | some c=>
   obtain⟨hlt,ht⟩:=(h.child?_eq_some_iff hm).1 hc
   grind
  | none=>
   have hno:=(h.child?_eq_none_iff hm).1 hc
   by_cases h0:m=0
   ·subst h0
    refine⟨fun c hc'=>absurd hc' (by simp),fun _ d y hd hy hs=>?_⟩
    rw[h.root_text,List.suffix_nil]at hs
    exact hno d hd (by rw[hy,hs,h.root_text])
   have hfm:=hf m hm h0 (le_refl _)
   simp only[beq_iff_eq,h0]
   obtain⟨h1,h2⟩:=ih hfm.lt (by have:=hfm.shorter;omega)
    fun x hx hx0 hxl=>hf x hx hx0 (by have:=hfm.shorter;omega)
   -- A word that the state does not go on with is found from the failure state on.
   have hdo:∀d y,d<t.states.size→text d=y++[b]→y <:+ text m→y <:+ text (t.state m).failure:=by
    intro d y hd hy hs
    obtain⟨e,he,hey⟩:=h.exists_state_of_append hd hy
    have hne:y≠text m:=fun hym=>hno d hd (hym▸hy)
    have hlt:y.length<(text m).length:=
     lt_of_le_of_ne hs.length_le fun hl=>hne (hs.eq_of_length hl)
    rw[←hey]at hs hlt⊢
    exact hfm.suffix_of he hs hlt
   refine⟨fun c hc'=>?_,fun hn d y hd hy hs=>h2 hn d y hd hy (hdo d y hd hy hs)⟩
   obtain⟨hlt,x,hx,hxs,hma⟩:=h1 c hc'
   exact⟨hlt,x,hx,hxs.trans hfm.suffix,fun d y hd hy hs=>hma d y hd hy (hdo d y hd hy hs)⟩
lemma fails_child (h:Shape t text)(h0:n≠0)(hc:c∈(t.state n).children)
 (hf:∀x,x<t.states.size→x≠0→(text x).length≤(text n).length→
  Fails t.states.size text x (t.state x).failure):
 Fails t.states.size text c ((t.findFailure (t.state c).input t.states.size (t.state n).failure).getD 0)∧
 t.findFailure (t.state c).input t.states.size (t.state n).failure≠some 0:=by
 obtain⟨hcl,_,hct⟩:=h.below hc
 have hfn:=hf n (h.parent_lt hc) h0 (le_refl _)
 have hle:=h.length_le hfn.lt
 obtain⟨h1,h2⟩:=findFailure_spec h (t.state c).input t.states.size hfn.lt
  (by have:=hfn.lt;omega) fun x hx hx0 hxl=>hf x hx hx0 (by have:=hfn.shorter;omega)
 -- A proper suffix of the longer word is empty, or a proper suffix of the shorter one with the byte.
 have hsp:∀m,m<t.states.size→text m <:+ text c→(text m).length<(text c).length→
  text m=[]∨∃y,text m=y++[(t.state c).input]∧y <:+ text (t.state n).failure:=by
  intro m hm hs hl
  rw[hct]at hs hl
  rcases List.eq_nil_or_concat (text m) with he|⟨y,b,he⟩
  ·exact Or.inl he
  rw[List.concat_eq_append]at he
  rw[he,List.suffix_concat_iff]at hs
  rcases hs with hs|⟨z,hz,hzs⟩
  ·simp at hs
  obtain⟨hyz,hb⟩:=List.append_inj' hz rfl
  subst hyz
  obtain⟨e,hel,hey⟩:=h.exists_state_of_append hm he
  refine Or.inr ⟨y,he.trans hz,?_⟩
  rw[he]at hl
  rw[←hey]at hzs⊢
  refine hfn.suffix_of hel hzs ?_
  rw[hey]
  simpa using hl
 cases hff:t.findFailure (t.state c).input t.states.size (t.state n).failure with
 | none=>
  refine⟨⟨h.root_lt,?_,?_,?_⟩,by simp⟩
  ·rw[Option.getD_none,h.root_text]
   exact List.nil_suffix
  ·rw[Option.getD_none,h.root_text,hct]
   simp
  grind
 | some f=>
  obtain⟨hlt,x,hx,hxs,hma⟩:=h1 f hff
  have hxn:=hxs.trans hfn.suffix
  have hxl:x.length<(text n).length:=lt_of_le_of_lt hxs.length_le hfn.shorter
  refine⟨⟨hlt,?_,?_,?_⟩,?_⟩
  ·rw[Option.getD_some,hx,hct]
   obtain⟨u,hu⟩:=hxn
   exact⟨u,by rw[←hu,List.append_assoc]⟩
  ·rw[Option.getD_some,hx,hct,List.length_append,List.length_append]
   omega
  ·intro m hm hs hl
   rw[Option.getD_some,hx]
   rcases hsp m hm hs hl with he|⟨y,hy,hys⟩
   ·simp[he]
   grind
  ·intro hz
   obtain rfl:f=0:=by simpa using hz
   rw[h.root_text]at hx
   simp at hx

/-- Distances tell the lists of nonempty atoms and of empty ones apart: an empty atom has the distance zero, and
beside it no other atom has it. -/
structure Distances (regs:List (Nat×AtomItem)):Prop where
 empty:∀x∈regs,x.2.atom=[]→distance x.2=0
 other:(∃x∈regs,x.2.atom=[])→∀x∈regs,x.2.atom≠[]→distance x.2≠0
def Holds (regs:List (Nat×AtomItem))(pool:Array Registration):Prop:=
 pool.size=regs.length∧∀(k:Nat)(x:Nat×AtomItem),regs[k]?=some x→∃r:Registration,pool[k]?=some r∧r.string=x.1∧
   r.backtrack=distance x.2∧r.entry=x.2.entry
lemma Holds.modify (h:Holds regs pool)(k:Nat)(q:Option Nat):
 Holds regs (pool.modify k fun r=>{r with next:=q}):=by
 refine⟨by simpa using h.1,fun i x hx=>?_⟩
 obtain⟨r,hr,hs⟩:=h.2 i x hx
 grind
lemma Holds.backtrack (h:Holds regs pool){k:Nat}{v:List UInt8}(hk:k∈owned regs v):∃x∈regs,x.2.atom.values=v∧
  (pool.getD k default).backtrack=distance x.2:=by
 obtain⟨x,hx,hv⟩:=Option.map_eq_some_iff.1 (mem_owned.1 hk)
 obtain⟨r,hr,_,hb,_⟩:=h.2 k x hx
 refine⟨x,List.mem_of_getElem? hx,hv,?_⟩
 rw[Array.getD_eq_getD_getElem?,hr]
 exact hb
lemma Distances.backtrack_root (hd:Distances regs)(h:Holds regs pool)(hk:k∈owned regs []):
 (pool.getD k default).backtrack=0:=by
 obtain⟨x,hx,hv,hb⟩:=h.backtrack hk
 have he:x.2.atom=[]:=List.map_eq_nil_iff.1 hv
 rw[hb]
 exact hd.empty x hx he
lemma Distances.backtrack_ne (hd:Distances regs)(h:Holds regs pool){v:List UInt8}
 (hk:k∈owned regs v)(hv:v≠[])(hr:owned regs []≠[]):(pool.getD k default).backtrack≠0:=by
 obtain⟨x,hx,hxv,hb⟩:=h.backtrack hk
 obtain⟨j,hj⟩:=List.exists_mem_of_ne_nil _ hr
 obtain⟨y,hy,hyv,_⟩:=h.backtrack hj
 rw[hb]
 refine hd.other ⟨y,hy,List.map_eq_nil_iff.1 hyv⟩ x hx ?_
 rintro he
 rw[he]at hxv
 exact hv hxv.symm
structure Alike (base t:Trie):Prop where
 size:t.states.size=base.states.size
 states:∀n,(t.state n).input=(base.state n).input∧(t.state n).depth=(base.state n).depth∧
  (t.state n).children=(base.state n).children
lemma Alike.trans {a b c:Trie}(h:Alike a b)(h':Alike b c):Alike a c where
 size:=h'.size.trans h.size
 states:=fun n=>⟨(h'.states n).1.trans (h.states n).1,(h'.states n).2.1.trans (h.states n).2.1,
  (h'.states n).2.2.trans (h.states n).2.2⟩
lemma Alike.modify {t:Trie}(hn:n<t.states.size)(f:State→State)
 (hf:∀s,(f s).input=s.input∧(f s).depth=s.depth∧(f s).children=s.children):
 Alike t {t with states:=t.states.modify n f}:=by
 refine⟨Array.size_modify,fun m=>?_⟩
 rw[state_modify hn]
 grind
def attach (t:Trie)(c:Nat)(q:Option Nat):Trie:=
 match (t.state c).first with
 | none=>{t with states:=t.states.modify c fun s=>{s with first:=q}}
 | some r=>t.append r q

/-- The list of a state goes on with another list, and so do the lists that end with the same registration. -/
structure Attached (t u:Trie)(c:Nat)(own:List Nat)(q:Option Nat):Prop where
 alike:Alike t u
 other:∀{m},c≠m→u.state m=t.state m
 failure:(u.state c).failure=(t.state c).failure
 holds:∀{regs},Holds regs t.pool→Holds regs u.pool
 apart:∀{p l},Chain t.pool p l→(∀k∈own.getLast?,k∉l)→Chain u.pool p l
 behind:∀{p l k rest},k∈own.getLast?→Chain t.pool p (l++[k])→(l++[k]).Nodup→
  Chain t.pool q rest→k∉rest→Chain u.pool p (l++[k]++rest)
 self:∀{rest},Chain t.pool q rest→(∀k∈own.getLast?,k∉rest)→Chain u.pool (u.state c).first (own++rest)
lemma Attached.refl (ho:Chain t.pool (t.state c).first own):Attached t t c own none:=by
 have hn:∀{rest},Chain t.pool none rest → rest=[]:=fun h=>h.eq_none_iff.1 rfl
 refine⟨⟨rfl,fun _=>⟨rfl,rfl,rfl⟩⟩,fun _=>rfl,rfl,id,fun h _=>h,?_,?_⟩
 ·grind
 grind
lemma attach_attached (hc:c<t.states.size)
 (ho:Chain t.pool (t.state c).first own)(hnd:own.Nodup)(q:Option Nat):
 Attached t (attach t c q) c own q:=by
 rw[attach]
 cases hf:(t.state c).first with
 | none=>
  rw[hf]at ho
  obtain rfl:=ho.eq_none_iff.1 rfl
  have hst:=state_modify hc t.pool fun s=>{s with first:=q}
  refine⟨.modify hc _ fun _=>⟨rfl,rfl,rfl⟩,fun hm=>(hst _).trans (if_neg hm),?_,id,
   fun h _=>h,nofun,fun hr _=>?_⟩
  ·rw[hst,if_pos rfl]
  ·rw[hst,if_pos rfl]
   exact hr
 | some r=>
  rw[hf]at ho
  obtain⟨l,k,rfl⟩:∃l k,own=l++[k]:=by
   rcases List.eq_nil_or_concat own with rfl|⟨l,k,rfl⟩
   ·exact nomatch ho.eq_none_iff.2 rfl
   ·exact⟨l,k,List.concat_eq_append⟩
  have hk:∀{j},j∈(l++[k]).getLast?↔k=j:=by simp
  simp only[append,ho.last_eq_of_nodup hnd]
  refine⟨⟨rfl,fun _=>⟨rfl,rfl,rfl⟩⟩,fun _=>rfl,rfl,fun h=>h.modify k q,
   fun h hl=>h.modify_of_not_mem (fun r=>{r with next:=q}) (hl k (hk.2 rfl)),?_,?_⟩
  ·intro p l' j rest hj h hnd hr hjr
   obtain rfl:=hk.1 hj
   exact h.splice hnd hr hjr
  ·intro rest hr hkr
   change Chain _ (t.state c).first _
   rw[hf]
   exact ho.splice hnd hr (hkr k (hk.2 rfl))

/-- The states of `linked` have failure states and share lists, and those of `rooted` end with the list of the root.
-/
structure Linking (regs:List (Nat×AtomItem))(text:Nat→List UInt8)(base t:Trie)
 (linked rooted:Set Nat):Prop where
 shape:Shape base text
 alike:Alike base t
 holds:Holds regs t.pool
 present:∀x∈regs,∃n,n<base.states.size∧text n=x.2.atom.values
 inside:∀{n},n∈linked→n<base.states.size∧n≠0
 subset:rooted ⊆ linked
 own:∀{n},n<base.states.size→n∉linked→Chain t.pool (t.state n).first (owned regs (text n))
 fails:∀{n},n∈linked→Fails base.states.size text n (t.state n).failure
 shared:∀{n},n∈linked→∃rest,(rest=owned regs []∨rest=[]∧n∉rooted)∧
  Chain t.pool (t.state n).first (gather regs rest (text n))
lemma sublist_of_rest {rest:List Nat}{P:Prop}(h:rest=owned regs []∨rest=[]∧P):
 rest.Sublist (owned regs []):=by
 grind
namespace Linking
variable {base:Trie}{linked rooted:Set Nat}
section
variable (h:Linking regs text base t linked rooted)
include h
lemma shape_now:Shape t text:=
 h.shape.congr h.alike.size h.alike.states
lemma root:Chain t.pool (t.state 0).first (owned regs []):=by
 have:=h.own h.shape.root_lt fun h0=>(h.inside h0).2 rfl
 rwa[h.shape.root_text]at this
lemma attach_root (hn:n∈linked)
 (hal:∀m,m<base.states.size→m≠0→(text m).length≤(text n).length→m∈linked)
 (hli:Chain t.pool (t.state n).first (gather regs [] (text n))):
 Linking regs text base (attach t n (t.state 0).first) linked (insert n rooted):=by
 have ha:=attach_attached (h.alike.size▸(h.inside hn).1) hli
  (gather_nodup (List.nil_sublist _) _) (t.state 0).first
 generalize attach t n (t.state 0).first=u at ha
 have hla:∀k∈(gather regs [] (text n)).getLast?,(t.pool.getD k default).next=none∧
  ∃v,v≠[]∧v <:+ text n∧k∈owned regs v:=by
  intro k hk
  obtain⟨l,hl⟩:=List.getLast?_eq_some_iff.1 hk
  exact⟨Chain.next_last (hl▸hli),
   (mem_gather.1 (hl▸List.mem_append_right l (List.mem_singleton_self k))).resolve_right List.not_mem_nil⟩
 have hro:∀k∈(gather regs [] (text n)).getLast?,k∉owned regs []:=by
  intro k hk hkr
  obtain⟨-,v,hv,-,hkv⟩:=hla k hk
  exact hv (owned_unique hkv hkr)
 refine⟨h.shape,h.alike.trans ha.alike,ha.holds h.holds,h.present,h.inside,insert_subset hn h.subset,?_,?_,?_⟩
 ·intro m hm hml
  rw[ha.other (m:=m) fun he=>hml (he▸hn)]
  refine ha.apart (h.own hm hml) fun k hk hkm=>?_
  obtain⟨-,v,hv,hvn,hkv⟩:=hla k hk
  obtain rfl:=owned_unique hkm hkv
  exact hml (hal m hm (fun h0=>hv (h0▸h.shape.root_text)) hvn.length_le)
 ·intro m hm
  by_cases he:n=m
  ·subst he
   exact ha.failure▸h.fails hm
  ·exact ha.other he▸h.fails hm
 intro m hm
 by_cases he:n=m
 ·subst he
  exact⟨_,.inl rfl,gather_eq regs (owned regs []) _▸ha.self h.root hro⟩
 obtain⟨rest,hre,hc⟩:=h.shared hm
 rw[ha.other he]
 by_cases hk:∃k∈(gather regs [] (text n)).getLast?,k∈gather regs rest (text m)
 ·obtain⟨k,hk,hkm⟩:=hk
  obtain⟨l,hl⟩:=hc.eq_append_of_next_none hkm (hla k hk).1
  -- The registration is not one of the root's, so the root's list is not yet behind it.
  have hni:rest=[]:=by
   by_contra hne
   have hla:=congrArg List.getLast? hl
   rw[gather_eq,List.getLast?_append_of_ne_nil _ hne,List.getLast?_concat]at hla
   exact hro k hk ((sublist_of_rest hre).subset (List.mem_of_getLast? hla))
  subst hni
  refine⟨_,.inl rfl,?_⟩
  rw[gather_eq,hl]
  exact ha.behind hk (hl▸hc) (hl▸gather_nodup (List.nil_sublist _) _) h.root (hro k hk)
 ·refine⟨rest,hre.imp_right fun hr=>⟨hr.1,?_⟩,ha.apart hc fun k hk' hkm=>hk ⟨k,hk',hkm⟩⟩
  exact fun hi=>hi.elim (he ·.symm) hr.2
lemma linkRoot (hd:Distances regs){n:Nat}(hn:n∈linked)
 (hal:∀m,m<base.states.size→m≠0→(text m).length≤(text n).length→m∈linked):
 Linking regs text base (t.linkRoot n) linked (insert n rooted):=by
 obtain⟨rest,hre,hli⟩:=h.shared hn
 have ha:=h.attach_root hn hal
 rw[Trie.linkRoot]
 cases hf:(t.state n).first with
 | none=>
  rw[hf]at hli
  have hni:=hli.eq_none_iff.1 rfl
  rw[gather_eq,List.append_eq_nil_iff]at hni
  rw[attach,hf,hni.1]at ha
  exact ha rfl
 | some r=>
  obtain⟨l,k,hl⟩:∃l k,gather regs rest (text n)=l++[k]:=by
   rcases List.eq_nil_or_concat (gather regs rest (text n)) with h0|⟨l,k,hl⟩
   ·exact nomatch hf.symm.trans (hli.eq_none_iff.2 h0)
   ·exact⟨l,k,hl.trans List.concat_eq_append⟩
  have hk:k∈gather regs rest (text n):=by simp[hl]
  have hla:t.last t.pool.size r=k:=
   Chain.last_eq_of_nodup (hf▸hl▸hli) (hl▸gather_nodup (sublist_of_rest hre) _)
  dsimp only
  rw[hla]
  split
  ·next hb=>
   -- The last registration looks like one of the root's, so the root's list is there or empty.
   have hcl:rest=owned regs []:=by
    refine hre.elim id fun⟨hni,_⟩=>?_
    subst hni
    obtain⟨v,hv,-,hkv⟩:=(mem_gather.1 hk).resolve_right List.not_mem_nil
    by_contra he
    exact hd.backtrack_ne h.holds hkv hv (Ne.symm he) (beq_iff_eq.1 hb)
   refine {h with subset:=insert_subset hn h.subset,shared:=fun {m} hm=>?_}
   by_cases he:m=n
   ·exact⟨rest,.inl hcl,he▸hli⟩
   ·obtain⟨rest,hre,hc⟩:=h.shared hm
    exact⟨rest,hre.imp_right fun hr=>⟨hr.1,fun hi=>hi.elim he hr.2⟩,hc⟩
  next hb=>
  have ho:rest=[]:=by
   by_contra hne
   have hla:=congrArg List.getLast? hl
   rw[gather_eq,List.getLast?_append_of_ne_nil _ hne,List.getLast?_concat]at hla
   exact hb (beq_iff_eq.2 (hd.backtrack_root h.holds
    ((sublist_of_rest hre).subset (List.mem_of_getLast? hla))))
  rw[attach,hf,←ho]at ha
  dsimp only[append]at ha
  grind
end
lemma linkChild_attached (hc:c<t.states.size)
 (ho:Chain t.pool (t.state c).first own)(hnd:own.Nodup){fn:Option Nat}
 (hfn:t.findFailure (t.state c).input t.states.size (t.state n).failure=fn)
 (hne:fn≠some c):
 Attached {t with states:=t.states.modify c fun s=>{s with failure:=fn.getD 0}}
  (t.linkChild n c) c own (fn.bind fun f=>(t.state f).first):=by
 have hst:=state_modify hc t.pool fun s=>{s with failure:=fn.getD 0}
 have ho':Chain t.pool (state { t with
  states:=t.states.modify c fun s=>{s with failure:=fn.getD 0} } c).first own:=by
  rw[hst,if_pos rfl]
  exact ho
 rw[Trie.linkChild,hfn]
 cases fn with
 | none=>exact .refl ho'
 | some f=>
  have hf:=hst f
  rw[if_neg fun he=>hne (congrArg some he.symm)]at hf
  have ha:=attach_attached (t:={ t with
   states:=t.states.modify c fun s=>{s with failure:=f} }) (by simpa using hc) ho' hnd
  rw[Option.bind_some,←hf]
  exact ha _
section
variable (h:Linking regs text base t linked rooted)
include h
lemma gather_of_fails (hf:Fails base.states.size text c f)(rest:List Nat):
 gather regs rest (text c)=owned regs (text c)++gather regs rest (text f):=by
 obtain⟨v,hv⟩:=hf.suffix
 have hl:=hf.shorter
 cases v with
 | nil=>
  rw[←hv]at hl
  simp at hl
 | cons b v=>
  rw[←hv,List.cons_append,gather,gather_skip rest v (text f)]
  intro x hx hxl
  refine List.eq_nil_iff_forall_not_mem.2 fun k hk=>?_
  obtain⟨y,hy,hyv⟩:=Option.map_eq_some_iff.1 (mem_owned.1 hk)
  obtain⟨m,hm,hmy⟩:=h.present y (List.mem_of_getElem? hy)
  rw[←hyv,←hmy]at hx hxl
  have hle:=hx.length_le
  have hcl:(text c).length=(v++text f).length+1:=by rw[←hv];simp
  have:=hf.longest hm (hv▸hx.trans (List.suffix_cons b _)) (by omega)
  omega
lemma linkChild {n c:Nat}(hn:n∈linked)(hc:c∈(base.state n).children)(hcl:c∉linked)
 (hal:∀m,m<base.states.size→m≠0→(text m).length≤(text n).length→m∈linked)
 (hsh:∀m∈linked,(text m).length≤(text n).length+1):
 Linking regs text base (t.linkChild n c) (insert c linked) rooted:=by
 obtain⟨hclt,hnc,-⟩:=h.shape.below hc
 have hcle:=h.shape.length_child hc
 have hcn:=h.shape.text_ne_nil hclt (by omega)
 have hc':c<t.states.size:=h.alike.size▸hclt
 obtain⟨hf,hne⟩:=fails_child h.shape_now (h.inside hn).2 ((h.alike.states n).2.2▸hc)
  fun x hx hx0 hxl=>by
   rw[h.alike.size]at hx⊢
   exact h.fails (hal x hx hx0 hxl)
 have ha:=linkChild_attached hc' (h.own hclt hcl) (owned_nodup regs _) rfl
  fun he=>lt_irrefl _ (he▸hf).shorter
 generalize t.findFailure (t.state c).input t.states.size (t.state n).failure=found at *
 rw[h.alike.size]at hf
 have hst:=state_modify hc' t.pool fun s=>{s with failure:=found.getD 0}
 have hli:Alike t _:=.modify hc' (fun s=>{s with failure:=found.getD 0}) fun _=>⟨rfl,rfl,rfl⟩
 have ho:∀{m},c≠m→(t.linkChild n c).state m=t.state m:=
  fun hm=>(ha.other hm).trans ((hst _).trans (if_neg hm))
 -- The list of the failure state, unless that is the root.
 obtain⟨rest,hre,hl⟩:∃rest,(rest=owned regs []∨rest=[]∧c∉rooted)∧
  Chain t.pool (found.bind fun f=>(t.state f).first) (gather regs rest (text (found.getD 0))):=by
  cases found with
  | none=>
   refine⟨[],.inr ⟨rfl,fun hr=>hcl (h.subset hr)⟩,?_⟩
   rw[Option.getD_none,h.shape.root_text]
   rfl
  | some f=>
   obtain⟨rest,hre,hl⟩:=h.shared (hal f hf.lt (fun he=>hne (by rw[he])) (by
    have:=hf.shorter
    rw[Option.getD_some]at this
    omega))
   exact⟨rest,hre.imp_right fun hr=>⟨hr.1,fun hr=>hcl (h.subset hr)⟩,hl⟩
 have how:∀{k},k∈(owned regs (text c)).getLast?→k∈owned regs (text c):=
  fun hk=>List.mem_of_getLast? hk
 refine⟨h.shape,h.alike.trans (hli.trans ha.alike),ha.holds h.holds,h.present,?_,
  h.subset.trans (subset_insert c linked),?_,?_,?_⟩
 ·rintro m (rfl|hm)
  ·exact⟨hclt,by omega⟩
  ·exact h.inside hm
 ·intro m hm hml
  have hcm:c≠m:=fun he=>hml (he▸mem_insert c linked)
  rw[ho hcm]
  refine ha.apart (h.own hm fun hm'=>hml (mem_insert_of_mem c hm')) fun k hk hkm=>?_
  exact hcm (h.shape.distinct hclt hm (owned_unique (how hk) hkm))
 ·rintro m (rfl|hm)
  ·rw[ha.failure,hst,if_pos rfl]
   exact hf
  ·rw[ho fun he=>hcl (he▸hm)]
   exact h.fails hm
 rintro m (rfl|hm)
 ·refine⟨rest,hre,?_⟩
  rw[h.gather_of_fails hf]
  exact ha.self hl fun k hk=>not_mem_gather (sublist_of_rest hre) (how hk) hcn
   fun hs=>hs.length_le.not_gt hf.shorter
 obtain⟨rest,hre,hl⟩:=h.shared hm
 rw[ho fun he=>hcl (he▸hm)]
 refine⟨rest,hre,ha.apart hl fun k hk=>?_⟩
 refine not_mem_gather (sublist_of_rest hre) (how hk) hcn fun hs=>hcl ?_
 have:=hsh m hm
 have he:=hs.eq_of_length_le (by omega)
 exact h.shape.distinct hclt (h.inside hm).1 he▸hm
lemma linkChildren (hn:n∈linked)
 (ha:∀m,m<base.states.size→m≠0→(text m).length≤(text n).length→m∈linked)
 (hsh:∀m∈linked,(text m).length≤(text n).length+1)(cs:List Nat)
 (hcs:∀c∈cs,c∈(base.state n).children∧c∉linked)(hnd:cs.Nodup):
 Linking regs text base (cs.foldl (fun t c=>t.linkChild n c) t) (linked ∪ {c | c∈cs})
  rooted:=by
 induction cs generalizing t linked with
 | nil=>simpa using h
 | cons c cs ih=>
  obtain⟨hc,hcl⟩:=hcs c (List.mem_cons_self ..)
  rw[List.nodup_cons]at hnd
  have hs:linked ∪ {x | x∈c::cs}=insert c linked ∪ {x | x∈cs}:=by grind
  rw[hs]
  refine ih (h.linkChild hn hc hcl ha hsh) (mem_insert_of_mem c hn)
   (fun m hm h0 hl=>mem_insert_of_mem c (ha m hm h0 hl)) ?_ ?_ hnd.2
  ·rintro m (rfl|hm)
   ·exact (h.shape.length_child hc).le
   ·exact hsh m hm
  grind
end
def reached (base:Trie)(l:List Nat):Set Nat:=
 {c | ∃n,(n=0∨n∈l)∧c∈(base.state n).children}
lemma start (h:Built regs base text):Linking regs text base base (reached base []) ∅:=by
 have ho:∀{n},n∈reached base []→n<base.states.size∧n≠0∧∃b,text n=[b]:=by
  rintro n ⟨m,rfl|hm,hc⟩
  ·obtain⟨hlt,hp,ht⟩:=h.below hc
   exact⟨hlt,hp.ne',_,by rw[ht,h.root_text];rfl⟩
  ·cases hm
 refine⟨h.toShape,⟨rfl,fun _=>⟨rfl,rfl,rfl⟩⟩,⟨h.pool_size,h.entry⟩,h.present,
  fun hn=>⟨(ho hn).1,(ho hn).2.1⟩,empty_subset _,fun hn _=>h.chain hn,?_,?_⟩
 ·intro n hn
  obtain⟨-,-,b,hb⟩:=ho hn
  rw[h.failure n]
  refine⟨h.root_lt,by simp[h.root_text],by simp[h.root_text,hb],fun _ _ hl=>?_⟩
  rw[hb,List.length_singleton]at hl
  omega
 ·intro n hn
  obtain⟨hlt,-,b,hb⟩:=ho hn
  have:=h.chain hlt
  rw[hb]at this⊢
  exact⟨[],.inr ⟨rfl,notMem_empty n⟩,by simpa[gather]using this⟩
lemma linkState {l:List Nat}{n:Nat}{r:List Nat}
 (h:Linking regs text base t (reached base l) {m | m∈l})(hd:Distances regs)
 (ho:base.order=l++n::r):
 Linking regs text base (t.linkState n) (reached base (l++[n])) {m | m∈l++[n]}:=by
 obtain⟨hn,hn0,hnl,hl,hle⟩:=h.shape.order_split ho
 -- Everything up to the depth of the state is linked, as its parents have been visited.
 have ha:∀m,m<base.states.size→m≠0→(text m).length≤(text n).length→m∈reached base l:=by
  intro m hm hm0 hln
  obtain⟨p,hpm⟩:=h.shape.above hm hm0
  have:=h.shape.length_child hpm
  exact⟨p,or_iff_not_imp_left.2 fun hp0=>hle p (h.shape.parent_lt hpm) hp0 (by omega),hpm⟩
 have hsh:∀m∈reached base l,(text m).length≤(text n).length+1:=by
  rintro m ⟨p,hp,hpm⟩
  rw[h.shape.length_child hpm,add_le_add_iff_right]
  rcases hp with rfl|hp
  ·simp[h.shape.root_text]
  ·exact (hl p hp).2.2
 have hme:=ha n hn hn0 (le_refl _)
 have hro:=h.linkRoot hd hme ha
 have hf:∀c∈(base.state n).children,c∉reached base l:=by
  rintro c hc ⟨p,hp,hpc⟩
  obtain rfl:=h.shape.parent_unique hc hpc
  exact hp.elim hn0 hnl
 have hk:=hro.linkChildren hme ha hsh (base.state n).children
  (fun c hc=>⟨hc,hf c hc⟩) (h.shape.once n)
 have hli:reached base (l++[n])=reached base l ∪ {c | c∈(base.state n).children}:=by
  ext c
  simp only[reached,List.mem_append,List.mem_singleton,←or_assoc,or_and_right,exists_or,
   exists_eq_left,mem_union,mem_ofPred_eq]
 have hr:{m | m∈l++[n]}=insert n {m | m∈l}:=by
  ext m
  simp[or_comm]
 rw[hli,hr,Trie.linkState,(hro.alike.states n).2.2]
 exact hk
lemma linkStates (h:Built regs base text)(hd:Distances regs)(l r:List Nat)(ho:base.order=l++r):
 Linking regs text base (l.foldl Trie.linkState base) (reached base l) {m | m∈l}:=by
 induction l using List.reverseRecOn generalizing r with
 | nil=>simpa using start h
 | append_singleton l n ih=>
  rw[List.foldl_append,List.foldl_cons,List.foldl_nil]
  have ho':base.order=l++n::r:=by simpa using ho
  exact (ih (n::r) ho').linkState hd ho'
end Linking
/-- A failure state that may be short: what was skipped goes on by nothing that the state does not go on by. -/
structure Skips (t:Trie)(text:Nat→List UInt8)(n g:Nat):Prop where
 lt:g<t.states.size
 suffix:text g <:+ text n
 shorter:(text g).length<(text n).length
 between:∀m b,m<t.states.size→text m <:+ text n→(text g).length<(text m).length→
  (text m).length<(text n).length→(t.child? m b).isSome→(t.child? n b).isSome
lemma Fails.skips (h:Fails t.states.size text n f):Skips t text n f where
 lt:=h.lt
 suffix:=h.suffix
 shorter:=h.shorter
 between:=by
  intro m b hm hs hl hl'
  have:=h.longest hm hs hl'
  omega
lemma Alike.child? {base t:Trie}(h:Alike base t)(n:Nat)(b:UInt8):t.child? n b=base.child? n b:=by
 have:(fun c=>(t.state c).input==b)=fun c=>(base.state c).input==b:=
  funext fun c=>by rw[(h.states c).1]
 rw[Trie.child?,Trie.child?,(h.states n).2.2,this]
lemma child?_of_covers {a:Nat}(h:t.covers a f)(b:UInt8)(hf:(t.child? f b).isSome):(t.child? a b).isSome:=by
 obtain⟨c,hc⟩:=Option.isSome_iff_exists.1 hf
 have hb:=List.find?_some hc
 rw[beq_iff_eq]at hb
 have:=List.all_eq_true.1 h c (List.mem_of_find?_eq_some hc)
 rwa[hb]at this
lemma Skips.trans {t:Trie}(hs:Shape t text){n f g:Nat}(h:Skips t text n f)
 (h':Skips t text f g)(hc:t.covers n f):Skips t text n g where
 lt:=h'.lt
 suffix:=h'.suffix.trans h.suffix
 shorter:=h'.shorter.trans h.shorter
 between:=by
  intro m b hm hmn hl hl' hb
  rcases Nat.lt_trichotomy (text m).length (text f).length with hlt|heq|hgt
  ·have hmf:=List.suffix_of_suffix_length_le hmn h.suffix hlt.le
   exact child?_of_covers hc b (h'.between m b hm hmf hl hlt hb)
  ·have hmf:=List.suffix_of_suffix_length_le hmn h.suffix heq.le
   have he:=hs.distinct hm h.lt (hmf.eq_of_length heq)
   exact child?_of_covers hc b (he▸hb)
  ·exact h.between m b hm hmn hgt hl' hb

/-- A trie whose states have failure states, and lists of all that is registered for suffixes. -/
structure Linked (regs:List (Nat×AtomItem))(text:Nat→List UInt8)(base t:Trie):
 Prop where
 shape:Shape base text
 alike:Alike base t
 holds:Holds regs t.pool
 list:∀n,n<base.states.size→Chain t.pool (t.state n).first (gather regs (owned regs []) (text n))
 skips:∀n,n<base.states.size→n≠0→Skips base text n (t.state n).failure
lemma Linked.shorten {base t:Trie}(h:Linked regs text base t){n:Nat}
 (hn:n<base.states.size)(h0:n≠0):Linked regs text base (t.shorten n):=by
 rw[Trie.shorten]
 split
 ·rename_i hf
  simp only[bne_iff_ne,Bool.and_eq_true]at hf
  have hn':n<t.states.size:=h.alike.size▸hn
  have hsn:=h.skips n hn h0
  have hc:base.covers n (t.state n).failure:=by
   have:=hf.2
   simp only[covers,h.alike.child?,(h.alike.states _).1,(h.alike.states _).2.2]at this
   exact this
  have hst:=state_modify hn' t.pool fun s=>{s with failure:=(t.state (t.state n).failure).failure}
  refine⟨h.shape,h.alike.trans (.modify hn' _ fun _=>⟨rfl,rfl,rfl⟩),h.holds,?_,?_⟩
  ·intro m hm
   rw[hst]
   split
   ·next he=>exact he▸h.list n hn
   ·exact h.list m hm
  ·intro m hm hm0
   rw[hst]
   split
   ·next he=>exact he▸hsn.trans h.shape (h.skips _ hsn.lt hf.1) hc
   ·exact h.skips m hm hm0
 ·exact h
lemma Built.linked {t:Trie}(h:Built regs t text)(hd:Distances regs):Linked regs text t t.linked:=by
 obtain⟨_,hme,_⟩:=h.toShape.order_spec
 have hli:=Linking.linkStates h hd t.order [] (by simp)
 have ho:∀{n},n<t.states.size→n≠0→n∈Linking.reached t t.order:=by
  intro n hn h0
  obtain⟨p,hpn⟩:=h.above hn h0
  exact⟨p,or_iff_not_imp_left.2 fun hp0=>(hme p).2 ⟨h.parent_lt hpn,hp0⟩,hpn⟩
 have hs:Linked regs text t (t.order.foldl linkState t):=by
  refine⟨h.toShape,hli.alike,hli.holds,fun n hn=>?_,fun n hn h0=>(hli.fails (ho hn h0)).skips⟩
  by_cases h0:n=0
  ·rw[h0,h.root_text]
   exact hli.root
  ·obtain⟨rest,rfl|hr,hls⟩:=hli.shared (ho hn h0)
   ·exact hls
   ·exact absurd ((hme n).2 ⟨hn,h0⟩) hr.2
 have hru:∀l:List Nat,(∀n∈l,n<t.states.size∧n≠0)→
  ∀u,Linked regs text t u→Linked regs text t (l.foldl shorten u):=by
  intro l
  induction l with
  | nil=>exact fun _ u hu=>hu
  | cons n l ih=>
   intro hl u hu
   have hn:=hl n (List.mem_cons_self ..)
   exact ih (fun m hm=>hl m (List.mem_cons_of_mem n hm)) _ (hu.shorten hn.1 hn.2)
 exact hru t.order (fun n hn=>(hme n).1 hn) _ hs
end Trie
end PatternScan.Automaton
