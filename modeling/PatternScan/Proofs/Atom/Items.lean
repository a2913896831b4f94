import PatternScan.Atom.Variant
import PatternScan.Proofs.Atom.Choice
import PatternScan.Proofs.Regex.Layout
/-! Atoms have at most four bytes and end within their string in its wide form. -/
open Or List.cons ByteArray.toList PatternScan.Bytes PatternScan.AtomItem.Traversal PatternScan.Limits PatternScan.Atom
namespace PatternScan
open UInt8 (ofFin and_zero toNat_inj toNat_add toNat_mul reduceToNat toNat_ofNat')
open List PatternScan.MaskedByte
variable {b:MaskedByte}
namespace MaskedByte
def Proper (b:MaskedByte):Prop:=
 b.mask=255∨IsDigitMask b.mask∧b.value &&& b.mask=b.value
def forms (b:MaskedByte):List MaskedByte:=
 if b.choices=[] then [b] else b.choices.map fun c=>⟨c,255⟩
lemma toNat_and_low (c:UInt8):(c &&& 15).toNat=c.toNat%16:=by
 have h:∀n:Fin 256,(ofFin n &&& 15).toNat=n.val%16:=by decide +kernel
 exact h c.toFin
lemma toNat_and_high (c:UInt8):(c &&& 240).toNat=c.toNat-c.toNat%16:=by
 have h:∀n:Fin 256,(ofFin n &&& 240).toNat=n.val-n.val%16:=by decide +kernel
 exact h c.toFin
lemma choices_known (h:b.mask=255):b.choices=[]:=by
 rw[choices,h]
 rfl
lemma mem_choices (hm:IsDigitMask b.mask)(hv:b.value &&& b.mask=b.value)
 (c:UInt8):c∈b.choices↔c &&& b.mask=b.value:=by
 obtain⟨v,m⟩:=b
 have hc:=c.toNat_lt
 have hlt:=v.toNat_lt
 dsimp only[choices]at hm hv⊢
 rcases hm with rfl|rfl|rfl
 ·rw[and_zero,←hv,and_zero]
  exact iff_of_true (mem_map.2 ⟨c.toNat,mem_range.2 hc,by simp⟩) rfl
 ·rw[if_neg (by decide),if_pos rfl,mem_map,←toNat_inj,toNat_and_low]
  rw[←toNat_inj,toNat_and_low]at hv
  constructor
  ·rintro⟨n,hn,rfl⟩
   simp only[toNat_add,toNat_mul,reduceToNat]
   omega
  ·intro hcv
   refine⟨c.toNat/16,mem_range.2 (by omega),toNat_inj.1 ?_⟩
   simp only[toNat_add,toNat_mul,reduceToNat,toNat_ofNat']
   omega
 rw[if_neg (by decide),if_neg (by decide),if_pos rfl,mem_map,←toNat_inj,toNat_and_high]
 rw[←toNat_inj,toNat_and_high]at hv
 constructor
 ·rintro⟨n,hn,rfl⟩
  rw[mem_range]at hn
  simp only[toNat_add,toNat_ofNat']
  omega
 ·intro hcv
  refine⟨c.toNat%16,mem_range.2 (by omega),toNat_inj.1 ?_⟩
  simp only[toNat_add,toNat_ofNat']
  omega
lemma nodup_choices (b:MaskedByte):b.choices.Nodup:=by
 have hma:∀(k:Nat) (f:Nat→UInt8),(∀m<k,∀n<k,(f m).toNat=(f n).toNat→m=n)→((range k).map f).Nodup:=by
  intro k f hf
  refine Nodup.map_on (fun m hm n hn h=>?_) nodup_range
  exact hf m (mem_range.1 hm) n (mem_range.1 hn) (congrArg UInt8.toNat h)
 rw[choices]
 split_ifs
 on_goal 4=>exact .nil
 all_goals
  refine hma _ _ fun m hm n hn h=>?_
  simp only[toNat_add,toNat_mul,reduceToNat,toNat_ofNat']at h
  omega
lemma two_le_length_choices (hm:IsDigitMask b.mask)
 (hv:b.value &&& b.mask=b.value):2≤b.choices.length:=by
 rw[choices]
 rcases hm with hm|hm|hm
 all_goals rw[hm]at hv⊢
 ·rw[if_pos rfl,length_map,length_range]
  decide
 ·rw[←toNat_inj,toNat_and_low]at hv
  rw[if_neg (by decide),if_pos rfl,length_map,length_range]
  omega
 ·rw[←toNat_inj,toNat_and_high]at hv
  rw[if_neg (by decide),if_neg (by decide),if_pos rfl,length_map,length_range]
  omega
lemma forms_known (h:b.mask=255):b.forms=[b]:=by rw[forms,if_pos (choices_known h)]
lemma settle_known (h:b.mask=255):b.settle=b:=by rw[settle,choices_known h]
section
variable (h:b.Proper)
include h
lemma forms_eq:b.forms=b.settle::b.others:=by
 rcases h with h|⟨hm,hv⟩
 ·rw[forms_known h,settle_known h,others,choices_known h]
  rfl
 ·have hl:=two_le_length_choices hm hv
  rw[forms,settle,others]
  match b.choices,hl with
  | _::_::_,_=>rfl
lemma mem_forms (c:MaskedByte):c∈b.forms↔c.mask=255∧c.value &&& b.mask=b.value:=by
 rcases h with h|⟨hm,hv⟩
 ·have ha:c.value &&& 255=c.value:=UInt8.and_neg_one
  rw[forms_known h,mem_singleton,h,ha]
  constructor
  ·rintro rfl
   exact⟨h,rfl⟩
  ·obtain⟨v,m⟩:=c
   obtain⟨v',m'⟩:=b
   simp_all
 have hl:=two_le_length_choices hm hv
 rw[forms,if_neg (by rintro hn;rw[hn]at hl;cases hl),←mem_choices hm hv,mem_map]
 constructor
 ·rintro⟨x,hx,rfl⟩
  exact⟨rfl,hx⟩
 ·rintro⟨hma,hc⟩
  exact⟨c.value,hc,by rw[←hma]⟩
end
lemma nodup_forms (b:MaskedByte):b.forms.Nodup:=by
 rw[forms]
 split
 ·exact nodup_singleton _
 ·exact b.nodup_choices.map fun x y hxy=>(mk.inj hxy).1
lemma length_forms (b:MaskedByte):b.forms.length=max 1 b.choices.length:=by
 rw[forms]
 split
 ·rename_i h
  rw[h]
  rfl
 ·rename_i h
  rw[length_map,max_eq_right (length_pos_iff.2 h)]
lemma mask_settle (h:b.Proper):b.settle.mask=255:=
 ((mem_forms h _).1 (forms_eq h▸mem_cons_self ..)).1
lemma mask_of_mem_others {c:MaskedByte}(h:c∈b.others):c.mask=255:=by
 obtain⟨x,-,rfl⟩:=mem_map.1 h
 rfl
end MaskedByte
namespace Atom
variable {a:Atom}
def Proper (a:Atom):Prop:=∀b∈a,b.Proper
def expand:Atom→List Atom
 | []=>[[]]
 | b::bs=>b.forms.flatMap fun c=>(expand bs).map (c::·)
lemma length_expand (a:Atom):a.expand.length=a.formCount:=by
 induction a with
 | nil=>rfl
 | cons b _ ih=>
  rw[expand,formCount,foldr_cons,←formCount,←ih,←b.length_forms]
  simp
lemma nodup_expand (a:Atom):a.expand.Nodup:=by
 induction a with
 | nil=>exact nodup_singleton _
 | cons b _ ih=>
  refine nodup_flatMap.2 ⟨fun c _=>ih.map fun x y hxy=>(inj hxy).2,?_⟩
  refine b.nodup_forms.imp fun hne x hx hy=>hne ?_
  grind
lemma mem_expand (h:a.Proper)(x:Atom):x∈a.expand↔
 Forall₂ (fun b c=>c.mask=255∧c.value &&& b.mask=b.value) a x:=by
 induction a generalizing x with
 | nil=>rw[expand,mem_singleton,forall₂_nil_left_iff]
 | cons b _ ih=>
  obtain⟨hb,hbs⟩:=forall_mem_cons.1 h
  rw[expand,mem_flatMap]
  constructor
  ·rintro⟨c,hc,hx⟩
   obtain⟨y,hy,rfl⟩:=mem_map.1 hx
   exact .cons ((mem_forms hb c).1 hc) ((ih hbs y).1 hy)
  ·rintro (_|⟨hc,hy⟩)
   exact⟨_,(mem_forms hb _).2 hc,mem_map.2 ⟨_,(ih hbs _).2 hy,rfl⟩⟩
lemma expand_cons_known (h:b.mask=255)(bs:Atom):expand (b::bs)=(expand bs).map (b::·):=by
 rw[expand,forms_known h,flatMap_singleton]
lemma expand_eq (h:a.Proper):a.expand=a.settle::a.copies.flatMap expand:=by
 induction a with
 | nil=>rfl
 | cons b bs ih=>
  obtain⟨hb,hbs⟩:=forall_mem_cons.1 h
  have hf:((copies bs).map (b.settle::·)).flatMap expand=((copies bs).flatMap expand).map (b.settle::·):=by
   rw[flatMap_map,map_flatMap]
   simp only[expand_cons_known (mask_settle hb)]
  have hba:(b.others.map (·::bs)).flatMap expand=b.others.flatMap fun c=>(expand bs).map (c::·):=by
   rw[flatMap_map]
   exact flatMap_congr fun c hc=>expand_cons_known (mask_of_mem_others hc) bs
  rw[expand,forms_eq hb,flatMap_cons,copies,flatMap_append,hf,hba]
  nth_rewrite 1 [ih hbs]
  rfl
lemma proper_of_mem_copies {x:Atom}(h:a.Proper)(hx:x∈a.copies):x.Proper:=by
 induction a generalizing x with
 | nil=>cases hx
 | cons b _ ih=>
  obtain⟨hb,hbs⟩:=forall_mem_cons.1 h
  rcases mem_append.1 hx with hx|hx
  ·obtain⟨y,hy,rfl⟩:=mem_map.1 hx
   exact forall_mem_cons.2 ⟨.inl (mask_settle hb),ih hbs hy⟩
  ·obtain⟨c,hc,rfl⟩:=mem_map.1 hx
   exact forall_mem_cons.2 ⟨.inl (mask_of_mem_others hc),hbs⟩
lemma isWild_settle (h:a.Proper):a.settle.isWild=false:=by
 rw[isWild,any_eq_false]
 intro c hc
 obtain⟨b,hb,rfl⟩:=mem_map.1 hc
 rw[choices_known (mask_settle (h b hb))]
 decide
lemma expand_of_tame (h:a.Proper)(hw:a.isWild=false):a.expand=[a]:=by
 have hk:∀b∈a,b.mask=255:=by
  intro b hb
  refine (h b hb).resolve_right fun⟨hm,hv⟩=>?_
  have hl:=two_le_length_choices hm hv
  have hn:b.choices=[]:=by simpa using any_eq_false.1 hw b hb
  rw[hn]at hl
  cases hl
 clear hw h
 induction a with
 | nil=>rfl
 | cons b _ ih=>
  obtain⟨hb,hbs⟩:=forall_mem_cons.1 hk
  rw[expand_cons_known hb,ih hbs]
  rfl
end Atom
namespace AtomItem
variable {x:AtomItem}{items:List AtomItem}
def forms (x:AtomItem):List AtomItem:=x.atom.expand.map fun a=>{x with atom:=a}
lemma nodup_forms (x:AtomItem):x.forms.Nodup:=
 x.atom.nodup_expand.map fun _ _ h=>(mk.inj h).1
lemma mem_forms (x:AtomItem)(h:x.atom.Proper)(y:AtomItem):y∈x.forms↔
 y.backtrack=x.backtrack∧y.entry=x.entry∧
  Forall₂ (fun b c=>c.mask=255∧c.value &&& b.mask=b.value) x.atom y.atom:=by
 rw[forms,mem_map]
 constructor
 ·rintro⟨a,ha,rfl⟩
  exact⟨rfl,rfl,(mem_expand h a).1 ha⟩
 ·rintro⟨hb,he,ha⟩
  exact⟨y.atom,(mem_expand h _).2 ha,by rw[←hb,←he]⟩
namespace Traversal
lemma visits_add (m n:Nat)(t:Traversal):visits (m+n) t=visits n (visits m t):=by
 induction m generalizing t with
 | zero=>rw[zero_add,visits]
 | succ m ih=>rw[Nat.succ_add,visits,visits,ih]
lemma visits_end (n:Nat)(p:List AtomItem):visits n ⟨p,[]⟩=⟨p,[]⟩:=by
 induction n with
 | zero=>rfl
 | succ n ih=>exact ih
def Passes (items:List AtomItem):Prop:=
 ∃n≤2*(items.flatMap forms).length,∀passed rest,
  visits n ⟨passed,items++rest⟩=⟨(items.flatMap forms).reverse++passed,rest⟩
lemma passes_of_forall (h:∀x∈items,Passes [x]):Passes items:=by
 induction items with
 | nil=>exact⟨0,zero_le,fun _ _=>rfl⟩
 | cons x _ ih=>
  obtain⟨hx,hi⟩:=forall_mem_cons.1 h
  obtain⟨m,hm,hf⟩:=hx
  simp only[flatMap_singleton]at hm hf
  obtain⟨n,hn,hr⟩:=ih hi
  refine⟨m+n,?_,fun p r=>?_⟩
  ·rw[flatMap_cons,length_append]
   omega
  ·rw[visits_add,cons_append,←singleton_append,hf,hr,flatMap_cons,reverse_append,append_assoc]

/-- By induction on the number of forms: the copies that follow a wild item when it is settled have fewer forms than
it had. -/
lemma passes_one (h:x.atom.Proper):Passes [x]:=by
 generalize hk:x.atom.expand.length=k
 induction k using Nat.strongRecOn generalizing x with
 | ind k ih=>
  cases hw:x.atom.isWild with
  | false=>
   have hf:x.forms=[x]:=by rw[forms,expand_of_tame h hw,map_singleton]
   refine⟨1,?_,fun p r=>?_⟩
   ·rw[flatMap_singleton,hf,length_singleton]
    decide
   ·rw[flatMap_singleton,hf]
    simp[visits,visit,hw]
  | true=>
   have hf:x.forms={x with atom:=x.atom.settle}::
    (x.atom.copies.map fun a=>{x with atom:=a}).flatMap forms:=by
    rw[forms,expand_eq h,map_cons,map_flatMap,flatMap_map]
    rfl
   have hc:Passes (x.atom.copies.map fun a=>{x with atom:=a}):=by
    refine passes_of_forall fun y hy=>?_
    obtain⟨a,ha,rfl⟩:=mem_map.1 hy
    refine ih _ ?_ (proper_of_mem_copies h ha) rfl
    rw[←hk,expand_eq h,length_cons,length_flatMap]
    exact Nat.lt_succ_of_le (le_sum_of_mem (mem_map.2 ⟨a,ha,rfl⟩))
   obtain⟨n,hn,hr⟩:=hc
   refine⟨n+2,?_,fun p r=>?_⟩
   ·rw[flatMap_singleton,hf,length_cons]
    omega
   ·rw[flatMap_singleton,hf,reverse_cons,append_assoc,visits,visits]
    simp only[visit,hw,if_true,cons_append,isWild_settle h]
    exact hr _ r
lemma visits_items (h:∀x∈items,x.atom.Proper):visits (items.foldr (fun x n=>2*x.atom.formCount+n) 0) ⟨[],items⟩=
  ⟨(items.flatMap forms).reverse,[]⟩:=by
 obtain⟨n,hn,hr⟩:=passes_of_forall fun x hx=>passes_one (h x hx)
 have ht:items.foldr (fun x n=>2*x.atom.formCount+n) 0=2*(items.flatMap forms).length:=by
  clear h hn hr
  induction items with
  | nil=>rfl
  | cons x _ ih=>rw[foldr_cons,ih,flatMap_cons,length_append,forms,length_map,length_expand,mul_add]
 have he:=hr [] []
 rw[append_nil,append_nil]at he
 rw[ht,←Nat.add_sub_cancel' hn,visits_add,he,visits_end]
end Traversal
@[simp] lemma Traversal.visits_nil:(visits 0 ⟨[],[]⟩).toList=[]:=rfl
lemma expandAll_eq (h:∀x∈items,x.atom.Proper):expandAll items=items.flatMap forms:=by
 rw[expandAll,visits_items h,toList,reverse_reverse,append_nil]
end AtomItem
open Regex (Derivation)
variable {b:UInt8}{i:Bool}{w:List UInt8}{items:List AtomItem}{x:AtomItem}
def Bytes.wide (w:List UInt8):List UInt8:=w.flatMap fun b=>[b,0]
lemma Bytes.wide_append (v w:List UInt8):wide (v++w)=wide v++wide w:=
 flatMap_append
lemma Bytes.length_wide (w:List UInt8):(wide w).length=2*w.length:=by
 induction w with
 | nil=>rfl
 | cons b w ih=>
  simp only[wide,flatMap_cons,length_append,length_cons,length_nil]at ih⊢
  omega
lemma Bytes.eq_of_lower_eq {c:UInt8}(h:lower b=lower c):b=c∨(isLetter c∧b=otherCase c):=by
 simp only[lower,Bool.and_eq_true,decide_eq_true_eq,UInt8.le_iff_toNat_le]at h
 simp only[isLetter,otherCase,Bool.or_eq_true,Bool.and_eq_true,decide_eq_true_eq,UInt8.le_iff_toNat_le]
 split_ifs at h⊢ <;>
  simp only[UInt8.toNat_add,UInt8.toNat_sub,UInt8.reduceToNat,←UInt8.toNat_inj]at * <;> omega
lemma Bytes.lower_otherCase (c:UInt8):lower (otherCase c)=lower c:=by
 have h:∀n:Fin 256,lower (otherCase (UInt8.ofFin n))=lower (UInt8.ofFin n):=by decide +kernel
 exact h c.toFin
namespace MaskedByte
lemma exists_mem_forms {m:MaskedByte}(hm:m.Proper)
 (h:m.admits i b):∃x∈m.forms,Alike i b x.value:=by
 rw[admits]at h
 split at h
 ·rename_i h255
  exact⟨m,by rw[forms_known h255,mem_singleton],h⟩
 ·exact⟨⟨b,255⟩,(mem_forms hm _).2 ⟨rfl,h.2⟩,inl rfl⟩
end MaskedByte
namespace Atom
def Spells (ignoreCase:Bool)(a:Atom)(w:List UInt8):Prop:=
 Forall₂ (fun (m:MaskedByte) b=>Alike ignoreCase b m.value) a w
variable {a:Atom}
lemma exists_mem_expand (ha:a.Proper)
 (h:Forall₂ (fun (m:MaskedByte) b=>m.admits i b) a w):
 ∃x∈a.expand,x.Spells i w:=by
 induction h with
 | nil=>exact⟨[],by simp[expand],Forall₂.nil⟩
 | cons hb _ ih=>
  obtain⟨hm,ha⟩:=forall_mem_cons.1 ha
  obtain⟨x,hx,hxb⟩:=MaskedByte.exists_mem_forms hm hb
  obtain⟨y,hy,hyw⟩:=ih ha
  refine⟨x::y,?_,Forall₂.cons hxb hyw⟩
  rw[expand,mem_flatMap]
  exact⟨x,hx,mem_map.2 ⟨y,hy,rfl⟩⟩
lemma Spells.widen {i:Bool}(h:a.Spells i w):
 a.widen.Spells i ((wide w).take atomLength):=by
 refine forall₂_take atomLength ?_
 induction h with
 | nil=>exact Forall₂.nil
 | cons hb _ ih=>exact Forall₂.cons hb (Forall₂.cons (inl rfl) ih)
lemma Spells.values_eq (h:a.Spells false w):a.values=w:=by
 induction h with
 | nil=>rfl
 | cons hb _ ih=>
  rcases hb with rfl|⟨hf,_⟩
  ·simp only[values,map_cons,injEq,true_and]at ih⊢
   exact ih
  ·cases hf
lemma Spells.mem_spellings (h:a.Spells true w):a.values=w∨w∈spellings a.values:=by
 induction h with
 | nil=>exact inl rfl
 | @cons m b a w hb _ ih=>
  have hc:b=m.value∨(isLetter m.value∧b=otherCase m.value):=by
   rcases hb with hb|⟨_,hb⟩
   ·exact inl hb
   ·exact eq_of_lower_eq hb
  have hv:values (m::a)=m.value::values a:=rfl
  rw[hv,spellings]
  simp only[mem_append,mem_map,injEq]
  rcases hc with rfl|⟨hl,rfl⟩
  ·grind
  ·rw[if_pos hl]
   rcases ih with rfl|ih
   ·exact inr (inr (mem_cons_self ..))
   ·exact inr (inr (mem_cons_of_mem _ (mem_map.2 ⟨w,ih,rfl⟩)))
lemma values_ofBytes (l:List UInt8):(ofBytes l).values=l:=by simp[ofBytes,values,Function.comp_def]
lemma alike_of_mem_spellings {v:List UInt8}(h:w∈spellings v):Forall₂ (Alike true) w v:=by
 induction v generalizing w with
 | nil=>cases h
 | cons c v ih=>
  have ho:Alike true (otherCase c) c:=.inr ⟨rfl,lower_otherCase c⟩
  have hr:∀d,Alike true d c→w∈(spellings v).map (d::·)→Forall₂ (Alike true) w (c::v):=by
   rintro d hd hw
   obtain⟨u,hu,rfl⟩:=mem_map.1 hw
   exact .cons hd (ih hu)
  rw[spellings,mem_append]at h
  rcases h with h|h
  ·exact hr c (.inl rfl) h
  ·split at h
   ·rcases mem_cons.1 h with rfl|h
    ·exact .cons ho (forall₂_same.2 fun _ _=>.inl rfl)
    ·exact hr _ ho h
   ·cases h
end Atom
namespace AtomItem
def Listed (ignoreCase:Bool)(items:List AtomItem)(entry:Regex.Entry)(w:List UInt8):
 Prop:=
 ∃x∈items,x.atom.Spells ignoreCase w∧x.entry=entry∧x.backtrack=0
lemma Listed.wideForms {i:Bool}{items:List AtomItem}{e:Regex.Entry}
 {w:List UInt8}(h:Listed i items e w):
 Listed i (wideForms items) e ((wide w).take atomLength):=by
 obtain⟨x,hx,hw,he,hb⟩:=h
 refine⟨{x with atom:=x.atom.widen,backtrack:=x.backtrack*2%65536},?_,hw.widen,he,?_⟩
 ·exact mem_reverse.2 (mem_map.2 ⟨x,hx,rfl⟩)
 ·simp[hb]
lemma exists_withCases (hx:x∈items)
 (f:StringFlags)(hw:x.atom.Spells f.noCase w):
 ∃y∈withCases f items,y.atom.values=w∧y.entry=x.entry∧y.backtrack=x.backtrack:=by
 rw[withCases]
 cases hc:f.noCase with
 | false=>
  rw[hc]at hw
  exact⟨x,hx,hw.values_eq,rfl,rfl⟩
 | true=>
  rw[hc]at hw
  rcases hw.mem_spellings with hv|hv
  ·exact⟨x,mem_append_left _ hx,hv,rfl,rfl⟩
  ·refine⟨{x with atom:=ofBytes w},mem_append_right _ ?_,?_,rfl,rfl⟩
   ·refine mem_reverse.2 (mem_flatMap.2 ⟨x,hx,?_⟩)
    exact mem_map.2 ⟨w,hv,rfl⟩
   ·exact values_ofBytes w
lemma alike_of_mem_withCases {f:StringFlags}
 (h:x∈withCases f items):∃y∈items,
  Forall₂ (Alike f.noCase) x.atom.values y.atom.values∧x.entry=y.entry∧x.backtrack=y.backtrack:=by
 have hs:∀l,Forall₂ (Alike f.noCase) l l:=fun l=>
  forall₂_same.2 fun _ _=>.inl rfl
 rw[withCases]at h
 split at h
 ·next hc=>
  rcases mem_append.1 h with h|h
  ·exact⟨x,h,hs _,rfl,rfl⟩
  ·obtain⟨y,hy,h⟩:=mem_flatMap.1 (mem_reverse.1 h)
   obtain⟨w,hw,rfl⟩:=mem_map.1 h
   refine⟨y,hy,?_,rfl,rfl⟩
   rw[hc,values_ofBytes]
   exact alike_of_mem_spellings hw
 ·exact⟨x,h,hs _,rfl,rfl⟩
lemma Listed.withCases {items:List AtomItem}{e:Regex.Entry}{w:List UInt8}
 (f:StringFlags)(h:Listed f.noCase items e w):
 ∃x∈withCases f items,x.atom.values=w∧x.entry=e∧x.backtrack=0:=by
 obtain⟨x,hx,hw,he,hb⟩:=h
 obtain⟨y,hy,hv,he',hb'⟩:=exists_withCases hx f hw
 exact⟨y,hy,hv,he'.trans he,hb'.trans hb⟩
end AtomItem
open AtomItem
open Regex (Node Entry)
variable {x:AtomItem}{t:Traversal}{f:StringFlags}
namespace AtomTree
mutual
def AllLeaves (P:Atom→Prop):AtomTree→Prop
 | .leaf a _=>P a
 | .allOf ts | .anyOf ts=>AllLeavesList P ts
def AllLeavesList (P:Atom→Prop):List AtomTree→Prop
 | []=>True
 | t::ts=>AllLeaves P t∧AllLeavesList P ts
end
variable {P:Atom→Prop}
lemma allLeavesList_iff {ts:List AtomTree}:AllLeavesList P ts↔∀t∈ts,AllLeaves P t:=by
 induction ts with
 | nil=>simp[AllLeavesList]
 | cons t _ ih=>simp[AllLeavesList,ih]
def Picked (P:Atom→Prop)(c:ChosenAtom):Prop:=
 c.atom≠[]∧∃a,P a∧c.atom=a.trim.2
mutual
theorem choose_picked (rule:QualityRule):(t:AtomTree)→AllLeaves P t→∀c∈(t.choose rule).1,Picked P c
 | .leaf a k,h,c,hc=>by
  rw[choose]at hc
  dsimp only at hc
  split at hc
  ·cases hc
  ·rename_i hne
   cases mem_singleton.1 hc
   exact⟨by simpa using hne,a,h,rfl⟩
 | .anyOf ts,h,c,hc=>chooseBest_picked rule ts [] 0 h nofun c hc
 | .allOf ts,h,c,hc=>chooseAll_picked rule ts [] _ h nofun c hc
theorem chooseBest_picked (rule:QualityRule):(ts:List AtomTree)→(best:List ChosenAtom)→
 (q:Int)→AllLeavesList P ts→(∀c∈best,Picked P c)→
 ∀c∈(chooseBest rule ts best q).1,Picked P c
 | [],_,_,_,hb,c,hc=>hb c hc
 | t::ts,best,q,h,hb,c,hc=>by
  have hbe:∀c∈(better rule t (best,q)).1,Picked P c:=by
   rw[better]
   split
   ·exact choose_picked rule t h.1
   ·exact hb
  rw[chooseBest_cons]at hc
  split at hc
  ·exact hbe c hc
  ·exact chooseBest_picked rule ts _ _ h.2 hbe c hc
theorem chooseAll_picked (rule:QualityRule):(ts:List AtomTree)→(all:List ChosenAtom)→
 (q:Int)→AllLeavesList P ts→(∀c∈all,Picked P c)→
 ∀c∈(chooseAll rule ts all q).1,Picked P c
 | [],_,_,_,hb,c,hc=>hb c hc
 | t::ts,all,q,h,hb,c,hc=>by
  rw[chooseAll]at hc
  refine chooseAll_picked rule ts _ _ h.2 (fun c hc=>?_) c hc
  rcases mem_append.1 hc with hc|hc
  ·exact choose_picked rule t h.1 c hc
  ·exact hb c hc
end
namespace Builder
def Sound (masked:Prop)(a:Atom):Prop:=a.length≤atomLength∧(masked→a.Proper)
lemma Sound.trim {masked:Prop}{a:Atom}(h:Sound masked a):Sound masked a.trim.2:=by
 have hp:=trim_isPrefix a
 have hl:=hp.length_le
 rw[length_drop]at hl
 refine⟨(hl.trans (Nat.sub_le _ _)).trans h.1,fun hm b hb=>h.2 hm b ?_⟩
 exact mem_of_mem_drop (hp.subset hb)
structure Short (masked:Prop)(b:Builder):Prop where
 recent:Sound masked (b.recent.map (·.byte))
 best:Sound masked b.best.1
 children:∀t∈b.children.toList,AllLeaves (Sound masked) t
variable {masked:Prop}{b:Builder}
lemma sound_nil:Sound masked []:=⟨zero_le,nofun⟩
lemma short_empty:Short masked empty:=⟨sound_nil,sound_nil,nofun⟩
lemma Short.recentAtom (h:Short masked b):Sound masked b.recentAtom.1:=h.recent.trim
section
variable (h:Short masked b)(rule:QualityRule)
include h rule
lemma Short.push (p:Piece)(hp:masked→p.byte.Proper):Short masked (b.push rule p):=by
 obtain⟨hl,hpr⟩:=h.recent
 rw[length_map]at hl
 -- The pieces are some of the recent ones and then the new one.
 have hs:∀k,b.recent.length-k<atomLength→Sound masked ((b.recent.drop k++[p]).map (·.byte)):=by
  intro k hk
  refine⟨?_,fun hm m hme=>?_⟩
  ·rw[length_map,length_append,length_drop,length_singleton]
   omega
  ·obtain⟨q,hq,rfl⟩:=mem_map.1 hme
   rcases mem_append.1 hq with hq|hq
   ·exact hpr hm _ (mem_map.2 ⟨q,mem_of_mem_drop hq,rfl⟩)
   ·rw[mem_singleton.1 hq]
    exact hp hm
 rw[Builder.push]
 split
 ·exact⟨hs 0 (by omega),h.best,h.children⟩
 split
 ·have hpo:0<atomLength:=by decide
  have hn:=hs 1 (by omega)
  dsimp only
  split
  ·exact⟨hn,h.recentAtom,h.children⟩
  ·exact⟨hn,h.best,h.children⟩
 ·exact h
lemma Short.flush_children (ts:Array AtomTree)(hts:∀t∈ts.toList,AllLeaves (Sound masked) t):
 Short masked (Builder.flush rule {b with children:=ts}):=by
 rw[Builder.flush]
 split
 ·exact⟨h.recent,h.best,hts⟩
 refine⟨sound_nil,h.best,fun t ht=>?_⟩
 rw[Array.toList_push,mem_append,mem_singleton]at ht
 rcases ht with ht|rfl
 ·exact hts t ht
 ·split
  ·exact h.recentAtom
  ·exact h.best
lemma Short.flush:Short masked (b.flush rule):=
 h.flush_children rule b.children h.children
end
lemma short_add (rule:QualityRule)(n:Node)(hma:masked→n.DigitMasks):
 ∀an b,Short masked b→Short masked (add rule an n b):=by
 induction n using Node.induction (Q:=fun ns=>(masked→Node.DigitMasksList ns)→
  ∀an b,Short masked b→Short masked (addList rule an ns b)) with
 | leaf n hn=>
  intro an b h
  cases n with
  | cat | alt | star | plus | range=>exact hn.elim
  | literal=>exact h.push rule _ fun _=>.inl rfl
  | masked=>exact h.push rule _ fun hm=>.inr (hma hm)
  | any=>exact h.push rule _ fun _=>.inr ⟨.inl rfl,UInt8.and_zero⟩
  | _=>exact h.flush rule
 | cat _ ih=>
  intro an b h
  exact ih hma an b h
 | alt l r ihl ihr=>
  intro an b h
  refine h.flush_children rule _ fun t ht=>?_
  rw[Array.toList_push,mem_append,mem_singleton]at ht
  rcases ht with ht|rfl
  ·exact h.children t ht
  ·have hl:=(ihl (fun hm=>(hma hm).1) an _ short_empty).flush rule
   have hr:=(ihr (fun hm=>(hma hm).2) (an+l.anchors) _ short_empty).flush rule
   exact⟨allLeavesList_iff.2 hl.children,allLeavesList_iff.2 hr.children,trivial⟩
 | star g e _=>
  intro an b h
  exact h.flush rule
 | plus g e ih=>
  intro an b h
  exact (ih hma an b h).flush rule
 | range lo _ g e ih=>
  intro an b h
  refine Short.flush ?_ rule
  generalize min lo atomLength=k
  induction k with
  | zero=>exact h
  | succ k ihk=>exact ih hma _ _ ihk
 | nil _ _ b h=>exact h
 | cons n _ ihn ihns hma _ b h=>exact ihns (fun hm=>(hma hm).2) _ _ (ihn (fun hm=>(hma hm).1) _ _ h)
end Builder
lemma choose_ofPattern_short (rule:QualityRule)(r:Node){c:ChosenAtom}
 (hc:c∈((ofPattern rule r).choose rule).1):
 c.atom≠[]∧c.atom.length≤atomLength∧(r.DigitMasks→c.atom.Proper):=by
 have hsh:=((Builder.short_add rule r id 0 _ Builder.short_empty).flush rule).children
 obtain⟨hne,a,ha,hac⟩:=choose_picked rule (ofPattern rule r) (allLeavesList_iff.2 hsh) c hc
 exact⟨hne,hac▸ha.trim⟩
end AtomTree
lemma Bytes.toList_loop (b:Bytes)(i:Nat)(r:List UInt8):
 loop b i r=r.reverse++b.data.toList.drop i:=by
 fun_induction loop b i r with
 | case1 i r h ih=>
  have hlt:i<b.data.size:=h
  have hg:b.get! i=b.data.toList[i]:=by
   change b.data[i]! = _
   rw[getElem!_pos b.data i hlt,Array.getElem_toList]
  rw[ih,reverse_cons,append_assoc,singleton_append,hg,←drop_eq_getElem_cons]
 | case2 i r h=>simpa using h
lemma Bytes.toList_eq (b:Bytes):ByteArray.toList b=b.data.toList:=toList_loop b 0 []
def Bytes.window (text:Bytes)(start:Nat):List UInt8:=
 (text.extract start (start+atomLength)).data.toList
lemma Bytes.length_window (t:Bytes)(start:Nat):
 (t.window start).length=min (start+atomLength) t.size-start:=by
 rw[window,Array.length_toList,ByteArray.data_extract,Array.size_extract]
 rfl
lemma AtomList.bestWindow_window (rule:QualityRule)(t:Bytes)(n:Nat):∀i bs,bs.1=ofBytes (t.window bs.2.1)→
 (bestWindow rule t n i bs).1=
  ofBytes (t.window (bestWindow rule t n i bs).2.1)∧
 ((bestWindow rule t n i bs).2.1=bs.2.1∨
  (bestWindow rule t n i bs).2.1 < i+n):=by
 induction n with
 | zero=>exact fun i bs h=>⟨h,.inl rfl⟩
 | succ n ih=>
  rintro i ⟨atom,s,quality⟩ h
  rw[bestWindow]
  split
  ·dsimp only
   rw[toList_eq]
   split
   ·obtain⟨h1,h2⟩:=ih (i+1) (ofBytes (t.window i),i,(ofBytes (t.window i)).quality rule) rfl
    refine⟨h1,.inr ?_⟩
    change (bestWindow rule t n (i+1) (ofBytes (t.window i),i,(ofBytes (t.window i)).quality rule)).2.1<_
    grind
   ·obtain⟨h1,h2⟩:=ih (i+1) (atom,s,quality) h
    exact⟨h1,h2.imp_right fun h=>by omega⟩
  ·exact⟨h,.inl rfl⟩
lemma AtomList.ofText_items (rule:QualityRule)(f:StringFlags)(k:UInt8×UInt8)(t:Bytes):
 ∃s,(s=0∨s+atomLength≤t.size)∧(ofText rule f k t).items=
   let items:=withCases f (withWide f
    [⟨ofBytes (t.window s),s%65536,⟨none,none⟩⟩])
   if f.xor then keyForms k.1 k.2 items else items:=by
 rw[ofText,toList_eq]
 dsimp only
 obtain⟨h1,h2⟩:=bestWindow_window rule t (t.size-atomLength) 1
  (ofBytes (t.window 0),0,(ofBytes (t.window 0)).quality rule) rfl
 have hf:(t.extract 0 atomLength).data.toList=t.window 0:=by rw[window,zero_add]
 rw[hf]
 refine⟨_,?_,by rw[h1]⟩
 dsimp only at h2
 omega
lemma Atom.length_of_mem_copies {a b:Atom}(h:b∈a.copies):b.length=a.length:=by
 induction a generalizing b with
 | nil=>cases h
 | cons m a ih=>
  rcases mem_append.1 h with h|h
  ·obtain⟨x,hx,rfl⟩:=mem_map.1 h
   rw[length_cons,length_cons,ih hx]
  ·obtain⟨c,-,rfl⟩:=mem_map.1 h
   rfl
namespace AtomItem
structure Like (x y:AtomItem):Prop where
 length:x.atom.length=y.atom.length
 backtrack:x.backtrack=y.backtrack
 entry:x.entry=y.entry
variable {items:List AtomItem}
lemma Like.trans {y z:AtomItem}(h:x.Like y)(h':y.Like z):x.Like z:=
 ⟨h.length.trans h'.length,h.backtrack.trans h'.backtrack,h.entry.trans h'.entry⟩
lemma Traversal.like_of_mem_visit (h:x∈t.visit.toList):∃y∈t.toList,x.Like y:=by
 obtain⟨p,_|⟨y,r⟩⟩:=t
 ·exact⟨x,h,rfl,rfl,rfl⟩
 rw[visit]at h
 split at h
 ·have hy:y∈toList ⟨p,y::r⟩:=mem_append_right _ (mem_cons_self ..)
  rcases mem_append.1 h with h|h
  ·exact⟨x,mem_append_left _ h,rfl,rfl,rfl⟩
  rcases mem_cons.1 h with rfl|h
  ·exact⟨y,hy,length_map _,rfl,rfl⟩
  rcases mem_append.1 h with h|h
  ·obtain⟨a,ha,rfl⟩:=mem_map.1 h
   exact⟨y,hy,length_of_mem_copies ha,rfl,rfl⟩
  ·exact⟨x,mem_append_right _ (mem_cons_of_mem _ h),rfl,rfl,rfl⟩
 ·exact⟨x,by simpa[toList]using h,rfl,rfl,rfl⟩
lemma Traversal.like_of_mem_visits (n:Nat)(h:x∈(visits n t).toList):∃y∈t.toList,x.Like y:=by
 induction n generalizing t with
 | zero=>exact⟨x,h,rfl,rfl,rfl⟩
 | succ n ih=>
  obtain⟨y,hy,hxy⟩:=ih h
  obtain⟨z,hz,hyz⟩:=like_of_mem_visit hy
  exact⟨z,hz,hxy.trans hyz⟩
lemma like_of_mem_expandAll (h:x∈expandAll items):∃y∈items,x.Like y:=
 like_of_mem_visits _ h
lemma like_of_mem_withCases (h:x∈withCases f items):∃y∈items,x.Like y:=by
 obtain⟨y,hy,hv,he,hb⟩:=alike_of_mem_withCases h
 exact⟨y,hy,by simpa[values]using hv.length_eq,hb,he⟩
lemma like_of_mem_keyForms {lo hi:UInt8}(h:x∈keyForms lo hi items):∃y∈items,x.Like y:=by
 obtain⟨y,hy,h⟩:=mem_flatMap.1 (mem_reverse.1 h)
 obtain⟨k,-,rfl⟩:=mem_map.1 h
 exact⟨y,hy,by rw[applyKey,length_map],rfl,rfl⟩
lemma mem_withWide (h:x∈withWide f items):x∈items∨f.wide∧
  ∃y∈items,x={y with atom:=y.atom.widen,backtrack:=y.backtrack*2%65536}:=by
 have hw:x∈wideForms items→∃y∈items,x={y with atom:=y.atom.widen,backtrack:=y.backtrack*2%65536}:=by
  intro h
  obtain⟨y,hy,rfl⟩:=mem_map.1 (mem_reverse.1 h)
  exact⟨y,hy,rfl⟩
 rw[withWide]at h
 grind

/-- An item to be searched for a string whose text takes a number of bytes: the atom ends inside of
the text. -/
structure Fits (x:AtomItem)(extent:Nat):Prop where
 short:x.atom.length≤atomLength
 empty:x.atom=[]→x.backtrack=0
 near:x.backtrack=0∨x.atom.length+x.backtrack≤extent
lemma Fits.like {y:AtomItem}{extent:Nat}(h:y.Fits extent)(hx:x.Like y):x.Fits extent:=by
 refine⟨hx.length▸h.short,fun he=>hx.backtrack▸h.empty ?_,?_⟩
 ·rw[←length_eq_zero_iff,←hx.length,he,length_nil]
 ·rw[hx.backtrack,hx.length]
  exact h.near
end AtomItem
lemma Atom.length_widen (a:Atom):a.widen.length=min atomLength (2*a.length):=by
 rw[widen,length_take]
 congr 1
 induction a with
 | nil=>rfl
 | cons b a _=>grind
namespace AtomList
lemma ofPattern_item {rule:QualityRule}{r:Node}
 {e:Array Entry}(hx:x∈(ofPattern rule f r e).items):
 x.backtrack=0∧x.atom≠[]∧x.atom.length≤atomLength∧
  ∃k:Nat,x.entry=(e[k]?).getD ⟨none,none⟩:=by
 obtain⟨y,hy,hl⟩:=like_of_mem_withCases hx
 have hw:∃z∈expandAll (((AtomTree.ofPattern rule r).choose rule).1.map fun c=>
  (⟨c.atom,0,(e[c.anchor]?).getD ⟨none,none⟩⟩:AtomItem)),
  y=z∨y={z with atom:=z.atom.widen,backtrack:=z.backtrack*2%65536}:=by
  split at hy
  ·exact⟨y,hy,.inl rfl⟩
  ·rcases mem_withWide hy with hy|⟨-,z,hz,rfl⟩
   ·exact⟨y,hy,.inl rfl⟩
   ·exact⟨z,hz,.inr rfl⟩
 obtain⟨z,hz,hyz⟩:=hw
 obtain⟨u,hu,hl'⟩:=like_of_mem_expandAll hz
 obtain⟨c,hc,rfl⟩:=mem_map.1 hu
 obtain⟨hne,hsh,-⟩:=AtomTree.choose_ofPattern_short rule r hc
 have hp:=length_pos_iff.2 hne
 have hle:=hl'.length
 dsimp only at hle
 have hy:y.backtrack=0∧0<y.atom.length∧y.atom.length≤atomLength∧y.entry=z.entry:=by
  rcases hyz with rfl|rfl
  ·exact⟨hl'.backtrack,by omega,by omega,rfl⟩
  ·refine⟨by simp[hl'.backtrack],?_,?_,rfl⟩
   all_goals
    rw[length_widen]
    omega
 refine⟨hl.backtrack.trans hy.1,?_,hl.length▸hy.2.2.1,c.anchor,?_⟩
 ·rw[←length_pos_iff,hl.length]
  exact hy.2.1
 ·rw[hl.entry,hy.2.2.2,hl'.entry]
lemma fits_wide {t:Bytes}(hem:x.atom=[]→x.backtrack=0)
 (h:x.atom.length+x.backtrack≤t.size):
 Fits {x with atom:=x.atom.widen,backtrack:=x.backtrack*2%65536} (2*t.size):=by
 have hl:=length_widen x.atom
 refine⟨?_,fun he=>?_,.inr ?_⟩
 ·dsimp only
  omega
 ·dsimp only at he⊢
  rw[he,length_nil]at hl
  have hn:x.atom=[]:=by
   rw[←length_eq_zero_iff]
   have hf:atomLength=4:=rfl
   omega
  rw[hem hn]
 ·dsimp only
  omega
lemma ofText_fits {rule:QualityRule}{k:UInt8×UInt8}{t:Bytes}
 (hx:x∈(ofText rule f k t).items):
 x.Fits (if f.wide then 2*t.size else t.size):=by
 obtain⟨start,hst,hi⟩:=ofText_items rule f k t
 have hle:(ofBytes (t.window start)).length=min (start+atomLength) t.size-start:=by
  rw[ofBytes,length_map,length_window]
 have hf:atomLength=4:=rfl
 have hem:ofBytes (t.window start)=[]→start%65536=0:=by
  intro he
  rw[he,length_nil]at hle
  omega
 have hc:∃y∈withWide f
  [⟨ofBytes (t.window start),start%65536,⟨none,none⟩⟩],x.Like y:=by
  rw[hi]at hx
  split at hx
  ·obtain⟨y,hy,hl⟩:=like_of_mem_keyForms hx
   obtain⟨z,hz,hl'⟩:=like_of_mem_withCases hy
   exact⟨z,hz,hl.trans hl'⟩
  ·exact like_of_mem_withCases hx
 obtain⟨y,hy,hl⟩:=hc
 refine Fits.like ?_ hl
 rcases mem_withWide hy with hy|⟨hw,z,hz,rfl⟩
 ·cases mem_singleton.1 hy
  refine⟨?_,hem,?_⟩
  ·dsimp only
   omega
  ·dsimp only
   split<;>omega
 ·cases mem_singleton.1 hz
  rw[if_pos hw]
  refine fits_wide hem ?_
  dsimp only
  omega
end AtomList
end PatternScan
