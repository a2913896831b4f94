import Mathlib
import PatternScan.Scan.Verify
/-! The matches of a string are kept in the order of their positions. -/
open List
namespace PatternScan.Scan
open Int64
def Block.Even (b:Block):Prop:=b.base.toInt+b.data.size<2 ^ 63
namespace Match
variable {b:Block}{x y:Match}
def In (m:Match)(b:Block):Prop:=m.base=b.base∧m.offset<b.data.size
lemma In.toInt_position (hx:x.In b)(hb:b.Even):x.position.toInt=b.base.toInt+x.offset:=by
 have hl:=b.base.le_toInt
 have hlt:(x.offset:Int)<b.data.size:=by exact_mod_cast hx.2
 unfold Block.Even at hb
 rw[position,hx.1,toInt_add,toInt_ofNat',Int.add_bmod_bmod]
 grind
lemma In.position_eq_iff (hx:x.In b)(hy:y.In b)(hb:b.Even):x.position=y.position↔x.offset=y.offset:=by
 rw[←toInt_inj,hx.toInt_position hb,hy.toInt_position hb]
 omega
def renewed (x m:Match):Match:=
 {x with length:=m.length,shown:=m.shown,block:=m.block,start:=m.start}
end Match
namespace MatchList
variable {b:Block}{l:MatchList}{m x:Match}{replace:Bool}
/-! ## The place of a match -/
lemma insert_cases (l:MatchList)(m:Match)(replace:Bool):
 (∃xs ys,l.toList=xs++ys ∧ (l.insert m replace).toList=xs++m::ys∧
  (∀x∈xs.getLast?,x.position < m.position) ∧ ∀y∈ys,m.position<y.position)∨
 ∃xs x ys,l.toList=xs++x::ys ∧ x.position=m.position∧
  (l.insert m replace).toList=xs++(if replace then x.renewed m else x)::ys:=by
 obtain⟨xs,ys,hk,hpl,ha,hb⟩:=l.place_spec m.position l.count (append_nil _).symm l.linked.count.ge
 rw[←l.linked.tail]at hpl hb
 have hl:l.toList=xs.map l.get++ys.map l.get:=by rw[LinkedList.toList,hk,map_append]
 unfold insert
 split
 ·next k hp=>
  rw[hp]at hpl hb
  obtain⟨j,hj,hpo⟩:=hb
  obtain rfl:k=j:=Option.some.inj (hpl.trans hj)
  obtain⟨xs,rfl⟩:=getLast?_eq_some_iff.1 hj
  rw[append_assoc]at hk
  rw[map_append,append_assoc]at hl
  refine .inr ⟨_,_,_,hl,hpo,?_⟩
  cases replace with
  | false=>exact hl
  | true=>
   have hnd:=l.linked.nodup
   rw[hk]at hnd
   rw[if_pos rfl,LinkedList.toList_modify,hk,map_append,singleton_append,map_cons,if_pos rfl]
   congr 1
   ·exact map_congr_left fun i hi=>if_neg fun h=>by grind
   ·exact congrArg _ (map_congr_left fun i hi=>if_neg fun h=>by grind)
 ·next p found hne hp=>
  rw[hp]at hpl hb
  obtain rfl:p=xs.getLast?:=hpl
  cases found with
  | true=>
   obtain⟨k,hk,-⟩:=hb
   exact absurd rfl (hne k hk)
  | false=>
   refine .inl ⟨_,_,hl,LinkedList.toList_insertAfter hk _,?_,?_⟩
   ·rw[getLast?_map]
    rintro _ hx
    obtain⟨k,hk,rfl⟩:=Option.map_eq_some_iff.1 hx
    exact hb k hk
   ·exact forall_mem_map.2 ha
lemma mem_insert (h:x∈(l.insert m replace).toList):x∈l.toList∨x=m∨
  (replace∧∃y∈l.toList,y.position=m.position∧x=y.renewed m):=by
 rcases l.insert_cases m replace with⟨xs,ys,hl,hi,-,-⟩|⟨xs,y,ys,hl,hy,hi⟩
 ·grind
 grind

/-! ## Order -/
def positions (l:MatchList):List Int64:=l.toList.map (·.position)
def Ordered (l:MatchList):Prop:=l.positions.Pairwise (·<·)
lemma Ordered.insert (h:l.Ordered)(m:Match)(replace:Bool):(l.insert m replace).Ordered:=by
 unfold Ordered positions at h⊢
 rcases l.insert_cases m replace with⟨xs,ys,hl,hi,hla,haf⟩|⟨xs,x,ys,hl,hx,hi⟩
 ·rw[hl,map_append,pairwise_append]at h
  obtain⟨hxs,hys,ha⟩:=h
  have hb:∀x∈xs,x.position < m.position:=by
   rcases eq_nil_or_concat' xs with rfl|⟨xs',z,rfl⟩
   ·exact nofun
   have hz:z.position < m.position:=hla z (by rw[getLast?_concat];rfl)
   rw[map_append,pairwise_append]at hxs
   intro x hx
   rcases mem_append.1 hx with hx|hx
   ·exact Int64.lt_trans (hxs.2.2 _ (mem_map_of_mem hx) _ mem_cons_self) hz
   ·exact mem_singleton.1 hx▸hz
  rw[hi,map_append,map_cons,pairwise_append,pairwise_cons]
  grind
 ·have hs:(if replace then x.renewed m else x).position=x.position:=by split<;>rfl
  grind

/-- The matches start in a block, in the order of their positions. -/
structure Ranked (b:Block)(l:MatchList):Prop where
 inside:∀m∈l.toList,m.In b
 ordered:l.Ordered
lemma ranked_empty (b:Block):Ranked b .empty:=⟨nofun,Pairwise.nil⟩
def Has (l:MatchList)(offset:Nat):Prop:=∃m∈l.toList,m.offset=offset
lemma Ranked.insert (h:Ranked b l)(hm:m.In b)(replace:Bool):Ranked b (l.insert m replace):=by
 refine⟨fun x hx=>?_,h.ordered.insert m replace⟩
 rcases mem_insert hx with hx|rfl|⟨-,y,hy,-,rfl⟩
 ·exact h.inside x hx
 ·exact hm
 ·exact h.inside y hy
lemma has_insert (h:Ranked b l)(hb:b.Even)(hm:m.In b)(replace:Bool)(offset:Nat):
 (l.insert m replace).Has offset↔offset=m.offset∨l.Has offset:=by
 have hin:=h.inside
 unfold Has
 rcases l.insert_cases m replace with⟨xs,ys,hl,hi,-,-⟩|⟨xs,x,ys,hl,hx,hi⟩
 ·grind
 rw[hl]at hin⊢
 have ho:x.offset=m.offset:=by rwa[(hin x (mem_append_right _ mem_cons_self)).position_eq_iff hm hb]at hx
 have hs:(if replace then x.renewed m else x).offset=m.offset:=by split<;>exact ho
 grind
lemma Ranked.nodup (h:Ranked b l):(l.toList.map (·.offset)).Nodup:=by
 refine pairwise_map.2 ((pairwise_map.1 h.ordered).imp_of_mem fun {x y} hx hy hlt=>?_)
 intro heq
 have hp:x.position=y.position:=by rw[Match.position,Match.position,(h.inside x hx).1,(h.inside y hy).1,heq]
 exact Int64.lt_irrefl (hp▸hlt)
lemma Ranked.size_le (h:Ranked b l){S:Finset Nat}(hS:∀o,l.Has o → o∈S):l.size≤S.card:=by
 have hs:l.toList.map (·.offset) ⊆ S.toList:=by
  intro o ho
  obtain⟨m,hm,rfl⟩:=mem_map.1 ho
  exact Finset.mem_toList.2 (hS _ ⟨m,hm,rfl⟩)
 have:=(h.nodup.subperm hs).length_le
 rwa[length_map,LinkedList.length_toList,Finset.length_toList]at this
end MatchList
end PatternScan.Scan
