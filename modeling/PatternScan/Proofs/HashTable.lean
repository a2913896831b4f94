import Mathlib
import PatternScan.HashTable.Basic
/-! A hash table is a map with shadowing: each key of a name space has a stack of values, whichever keys share
its bucket. -/
namespace PatternScan
open List
instance:LawfulBEq Bytes where
 eq_of_beq {a b} h:=ByteArray.ext (eq_of_beq (a:=a.data) (b:=b.data) h)
 rfl {a}:=beq_self_eq_true a.data
namespace HashTable
variable {α σ:Type}{t:HashTable α}{key k:Bytes}{space s:Option Bytes}
inductive Operation (α σ:Type) where
 | add (key:Bytes)(space:Option Bytes)(value:α)
 | remove (key:Bytes)(space:Option Bytes)
 | lookup (key:Bytes)(space:Option Bytes)
 | iterate (space:Option Bytes)(visit:Bytes→α→EStateM ResultCode σ Unit)(data:σ)
 | clean
inductive Answer (α σ:Type) where
 | done
 | value (found:Option α)
 | iterated (result:EStateM.Result ResultCode σ Unit)
def perform (t:HashTable α):Operation α σ→Answer α σ×HashTable α
 | .add key space v=>(.done,t.add key space v)
 | .remove key space=>(t.remove key space).map .value id
 | .lookup key space=>(.value (t.lookup? key space),t)
 | .iterate space visit data=>(.iterated ((t.iterate space visit).run data),t)
 | .clean=>(.done,t.clear)
def run (t:HashTable α)(ops:List (Operation α σ)):HashTable α:=ops.foldl (fun t op=>(t.perform op).2) t

/-- The values of each key in each name space that were added and not removed, the latest first. -/
abbrev Stacks (α:Type):=Bytes→Option Bytes→List α
def Stacks.change (m:Stacks α)(key:Bytes)(space:Option Bytes)(g:List α→List α):Stacks α:=
 fun k s=>if k=key∧s=space then g (m k s) else m k s
def Stacks.perform (m:Stacks α):Operation α σ→Stacks α
 | .add key space v=>m.change key space (v::·)
 | .remove key space=>m.change key space tail
 | .lookup _ _ | .iterate _ _ _=>m
 | .clean=>fun _ _=>[]

/-- An iteration shows every value of the name space once, those of one key from the latest on, and nothing else. -/
def Stacks.Answers (m:Stacks α):Operation α σ→Answer α σ→Prop
 | .add _ _ _,a | .clean,a=>a=.done
 | .remove key space,a | .lookup key space,a=>a=.value (m key space).head?
 | .iterate space visit data,a=>∃shown:List (Bytes×α),
  (∀key,(shown.filter (·.1==key)).map (·.2)=m key space)∧
  a=.iterated ((shown.forM fun b=>visit b.1 b.2).run data)

/-- The values that stand for a key in its bucket. -/
def chain (t:HashTable α):Stacks α:=fun key space=>
 ((t.buckets.getD (t.bucket key space) []).filter (isFor key space)).map (·.value)
lemma lookup?_eq_head:t.lookup? key space=(t.chain key space).head?:=by
 rw[lookup?,chain,head?_map,head?_filter]
lemma isFor_iff {b:Binding α}:isFor key space b↔b.key=key∧b.space=space:=by simp[isFor]
section
variable {f:List (Binding α)→List (Binding α)}
@[simp] lemma size_change:(t.change key space f).buckets.size=t.buckets.size:=Array.size_modify
lemma bucket_change:(t.change key space f).bucket k s=t.bucket k s:=by simp only[bucket,size_change]
lemma getD_change (ht:0<t.buckets.size)(i:Nat):(t.change key space f).buckets.getD i []=
 if i=t.bucket key space then f (t.buckets.getD i []) else t.buckets.getD i []:=by
 have hb:t.bucket key space<t.buckets.size:=Nat.mod_lt _ ht
 rw[change,Array.getD_eq_getD_getElem?,Array.getD_eq_getD_getElem?,Array.getElem?_modify]
 grind
lemma chain_change (ht:0<t.buckets.size){g:List α→List α}
 (hf:∀l,((f l).filter (isFor key space)).map (·.value)=g ((l.filter (isFor key space)).map (·.value)))
 (hk:∀l k s,¬(k=key∧s=space)→(f l).filter (isFor k s)=l.filter (isFor k s)):
 (t.change key space f).chain=t.chain.change key space g:=by
 funext k s
 rw[chain,bucket_change,getD_change ht,Stacks.change,chain]
 by_cases h:k=key∧s=space
 ·obtain⟨rfl,rfl⟩:=h
  rw[if_pos rfl,if_pos ⟨rfl,rfl⟩,hf]
 ·rw[if_neg h]
  split
  · -- a collision: the bucket changes, but not for this key
   rw[hk _ _ _ h]
  ·rfl
end
lemma chain_add (ht:0<t.buckets.size)(v:α):(t.add key space v).chain=t.chain.change key space (v::·):=
 chain_change ht (fun l=>by simp[isFor]) fun l k s h=>filter_cons_of_neg fun hb=>h ((isFor_iff.1 hb).imp .symm .symm)
lemma lookup?_add (ht:0<t.buckets.size)(v:α):(t.add key space v).lookup? k s=
  if k=key∧s=space then some v else t.lookup? k s:=by
 rw[lookup?_eq_head,lookup?_eq_head,chain_add ht,Stacks.change]
 split<;>rfl
lemma filter_eraseP (p:Binding α→Bool)(l:List (Binding α)):(l.eraseP p).filter p=(l.filter p).tail:=by
 induction l with
 | nil=>rfl
 | cons b l ih=>cases h:p b<;>simp[h,ih]
lemma filter_eraseP_other {p q:Binding α→Bool}(h:∀b,q b→¬p b)(l:List (Binding α)):
 (l.eraseP p).filter q=l.filter q:=by
 induction l with
 | nil=>rfl
 | cons b l ih=>
  have hb:=h b
  cases hp:p b<;>simp_all[filter_cons]
lemma chain_remove (ht:0<t.buckets.size):(t.remove key space).2.chain=t.chain.change key space tail:=
 chain_change ht (fun l=>by rw[filter_eraseP,map_tail]) fun l k s h=>filter_eraseP_other (fun b hb hp=>h
  ⟨(isFor_iff.1 hb).1.symm.trans (isFor_iff.1 hp).1,(isFor_iff.1 hb).2.symm.trans (isFor_iff.1 hp).2⟩) l

/-- Every binding stands in the bucket of its key and name space. -/
structure Placed (t:HashTable α):Prop where
 size:0<t.buckets.size
 at_bucket:∀i,∀b∈t.buckets.getD i [],t.bucket b.key b.space=i
lemma Placed.change {f:List (Binding α)→List (Binding α)}(h:Placed t)(hf:∀l,∀b∈f l,b∈l∨isFor key space b):
 Placed (t.change key space f) where
 size:=by simpa using h.size
 at_bucket i b hb:=by
  rw[getD_change h.size]at hb
  rw[bucket_change]
  split at hb
  ·next hi=>
   rcases hf _ b hb with hb|hb
   ·exact h.at_bucket i b hb
   ·obtain⟨rfl,rfl⟩:=isFor_iff.1 hb
    exact hi.symm
  ·exact h.at_bucket i b hb
lemma placed_nothing (ht:0<t.buckets.size)(h:∀i,t.buckets.getD i []=[]):Placed t∧t.chain=fun _ _=>[]:=
 ⟨⟨ht,fun i b hb=>by simp[h]at hb⟩,by funext key space;simp[chain,h]⟩
lemma getD_empty (n i:Nat):(empty n:HashTable α).buckets.getD i []=[]:=by
 rw[empty,Array.getD_eq_getD_getElem?,Array.getElem?_replicate]
 split<;>rfl
lemma lookup?_empty (n:Nat):(empty n:HashTable α).lookup? key space=none:=by
 rw[lookup?_eq_head,chain,getD_empty]
 rfl
lemma Placed.perform (h:Placed t)(op:Operation α σ):
 Placed (t.perform op).2∧(t.perform op).2.chain=t.chain.perform op:=by
 cases op with
 | add key space v=>
  refine⟨h.change fun l b hb=>?_,chain_add h.size v⟩
  rcases mem_cons.1 hb with rfl|hb
  ·exact .inr (isFor_iff.2 ⟨rfl,rfl⟩)
  ·exact .inl hb
 | remove key space=>exact⟨h.change fun l b hb=>.inl (mem_of_mem_eraseP hb),chain_remove h.size⟩
 | lookup key space=>exact⟨h,rfl⟩
 | iterate space visit data=>exact⟨h,rfl⟩
 | clean=>
  refine placed_nothing (by simpa[HashTable.perform,clear]using h.size) fun i=>?_
  rw[HashTable.perform,clear,Array.getD_eq_getD_getElem?,Array.getElem?_map]
  cases t.buckets[i]?<;>rfl
lemma Placed.run (h:Placed t)(ops:List (Operation α σ)):
 Placed (t.run ops)∧(t.run ops).chain=ops.foldl Stacks.perform t.chain:=by
 induction ops generalizing t with
 | nil=>exact⟨h,rfl⟩
 | cons op ops ih=>
  obtain⟨hp,hc⟩:=h.perform op
  rw[foldl_cons,←hc]
  exact ih hp
lemma flatten_eq_getElem {β:Type}{L:List (List β)}{j:Nat}(hj:j<L.length)
 (h:∀i (hi:i<L.length),i≠j → L[i]=[]):L.flatten=L[j]:=by
 induction L generalizing j with
 | nil=>simp at hj
 | cons l L ih=>
  cases j with
  | zero=>
   have hL:L.flatten=[]:=flatten_eq_nil_iff.2 fun l hl=>by
    obtain⟨i,hi,rfl⟩:=getElem_of_mem hl
    exact h (i+1) (by simpa using hi) (by simp)
   simp[hL]
  | succ j=>
   have hl:l=[]:=h 0 (by simp) (by simp)
   rw[flatten_cons,hl,nil_append,ih (by simpa using hj) fun i hi hij=>h (i+1) (by simpa using hi) (by simpa using hij)]
   rfl

/-- No other bucket has a binding for the key. -/
lemma Placed.listed (h:Placed t)(key:Bytes)(space:Option Bytes):
 (t.toList.filter (isFor key space)).map (·.value)=t.chain key space:=by
 have hb:t.bucket key space<t.buckets.size:=Nat.mod_lt _ h.size
 rw[chain,toList,filter_flatten,flatten_eq_getElem (j:=t.bucket key space) (by simpa using hb)]
 ·simp[hb]
 ·intro i hi hne
  rw[getElem_map,filter_eq_nil_iff]
  intro b hm hf
  obtain⟨rfl,rfl⟩:=isFor_iff.1 hf
  refine hne (h.at_bucket i b ?_).symm
  simp at hi hm
  simpa[hi]using hm
lemma iterate_eq_forM (t:HashTable α)(space:Option Bytes)(visit:Bytes→α→EStateM ResultCode σ Unit):
 t.iterate space visit=(t.toList.filter (·.space==space)).forM fun b=>visit b.key b.value:=by
 rw[iterate]
 induction t.toList with
 | nil=>rfl
 | cons b l ih=>
  rw[List.forM_eq_forM,forM_cons,←List.forM_eq_forM,ih,filter_cons]
  split
  ·rfl
  ·rw[pure_bind]
lemma Placed.answers (h:Placed t)(op:Operation α σ):t.chain.Answers op (t.perform op).1:=by
 cases op with
 | add | clean=>rfl
 | remove | lookup=>exact congrArg _ lookup?_eq_head
 | iterate space visit data=>
  refine⟨(t.toList.filter (·.space==space)).map fun b=>(b.key,b.value),fun key=>?_,?_⟩
  ·rw[←h.listed key space,filter_map,map_map,filter_filter]
   rfl
  ·rw[HashTable.perform,iterate_eq_forM]
   simp

/-- After any operations a table answers the next one as the stacks do, however many keys share a bucket. -/
theorem table_shadows (n:Nat)(ops:List (Operation α σ))(op:Operation α σ):
 (ops.foldl Stacks.perform fun _ _=>[]).Answers op (((empty (n+1)).run ops).perform op).1:=by
 obtain⟨h,hc⟩:=placed_nothing (t:=empty (n+1)) (by simp[empty]) (getD_empty _)
 obtain⟨h,hr⟩:=h.run ops
 rw[←hc,←hr]
 exact h.answers op
end HashTable
end PatternScan
