import PatternScan.Proofs.Atom.Coverage
import PatternScan.Proofs.Automaton.Search
import PatternScan.Proofs.Regex.Middle
import PatternScan.Proofs.Scan.Calls
/-! An atom of a literal is a window of its text, or one that differs from it in case. -/
open PatternScan.Limits (atomLength)
open PatternScan.AtomItem PatternScan.Form PatternScan.Bytes ByteArray.foldlM PatternScan.RuleString PatternScan.Atom
namespace PatternScan
open List
variable {flags:StringFlags}{v:List UInt8}{i:List AtomItem}{x:AtomItem}
namespace Form
variable (f:Form)(k:UInt8)(w:List UInt8)
def coded:List UInt8:=(f.spread w).map (· ^^^ k)
lemma map_xor_zero:w.map (· ^^^ 0)=w:=by rw[funext fun b=>UInt8.xor_zero,map_id']
lemma coded_plain:plain.coded 0 w=w:=map_xor_zero w
lemma length_coded:(f.coded k w).length=f.width*w.length:=by rw[coded,length_map,length_spread]
lemma coded_nil:f.coded k []=[]:=by cases f<;>rfl
lemma width_pos:0<f.width:=by cases f<;>decide
lemma coded_append (v:List UInt8):f.coded k (v++w)=f.coded k v++f.coded k w:=by
 rw[coded,spread_append,map_append,coded,coded]
lemma coded_drop (n:Nat):f.coded k (w.drop n)=(f.coded k w).drop (f.width*n):=by
 rcases le_total n w.length with hn|hn
 ·conv_rhs=>rw[←take_append_drop n w,coded_append]
  rw[drop_left' (by rw[length_coded,length_take,min_eq_left hn])]
 ·rw[drop_eq_nil_of_le hn,drop_eq_nil_of_le,coded_nil]
  rw[length_coded]
  exact Nat.mul_le_mul_left _ hn
lemma coded_take (n:Nat):f.coded k (w.take n)=(f.coded k w).take (f.width*n):=by
 rcases le_total n w.length with hn|hn
 ·conv_rhs=>rw[←take_append_drop n w,coded_append]
  rw[take_left' (by rw[length_coded,length_take,min_eq_left hn])]
 ·rw[take_of_length_le hn,take_of_length_le]
  rw[length_coded]
  exact Nat.mul_le_mul_left _ hn
def Worded (flags:StringFlags)(keys:UInt8×UInt8):Prop:=
 f.Searched flags∧if flags.xor then keys.1≤k∧k≤keys.2 else k=0

/-- The wordings that a text is compared with where an atom was found. Keys are not compared with those of the string,
and the plain form is tried under each. -/
def Tried (flags:StringFlags):Prop:=
 (f=.wide→flags.wide=true)∧(flags.xor=false→f.Searched flags∧k=0)
variable {f k}
lemma Worded.tried {keys:UInt8×UInt8}(h:f.Worded k flags keys):f.Tried k flags:=by
 refine⟨?_,fun hxo=>⟨h.1,?_⟩⟩
 ·rintro rfl
  exact h.1.1
 ·simpa only[hxo,Bool.false_eq_true,if_false]using h.2
end Form
lemma Bytes.alike_false {b c:UInt8}:Alike false b c↔b=c:=
 ⟨fun h=>h.resolve_right nofun,.inl⟩
lemma Bytes.forall₂_alike_false {w:List UInt8}:Forall₂ (Alike false) v w↔v=w:=by
 rw[show Alike false=(·=·) from funext fun _=>funext fun _=>propext alike_false,forall₂_eq_eq_eq]
lemma Atom.values_applyKey (k:UInt8)(a:Atom):(a.applyKey k).values=a.values.map (· ^^^ k):=by
 simp[applyKey,values]
lemma Bytes.window_eq (text:Bytes)(start:Nat):text.window start=(text.list.drop start).take atomLength:=by
 rw[window,ByteArray.data_extract,Array.toList_extract,extract_eq_take_drop,Nat.add_sub_cancel_left]
 rfl
namespace AtomItem
lemma mem_keyForms {lo hi:UInt8}:
 x∈keyForms lo hi i↔∃y∈i,∃k,(lo≤k∧k≤hi)∧x={y with atom:=y.atom.applyKey k}:=by
 have hhi:=hi.toNat_lt
 rw[keyForms,mem_reverse,mem_flatMap]
 refine exists_congr fun y=>and_congr_right fun _=>?_
 rw[mem_map]
 constructor
 ·rintro⟨n,hn,rfl⟩
  rw[mem_range]at hn
  have hs:(lo+n.toUInt8).toNat=lo.toNat+n:=by
   rw[UInt8.toNat_add,show n.toUInt8.toNat=n%256 from UInt8.toNat_ofNat']
   omega
  refine⟨lo+n.toUInt8,?_,rfl⟩
  rw[UInt8.le_iff_toNat_le,UInt8.le_iff_toNat_le]
  omega
 rintro⟨k,⟨hlk,hkh⟩,rfl⟩
 rw[UInt8.le_iff_toNat_le]at hlk hkh
 refine⟨k.toNat-lo.toNat,mem_range.2 (by omega),?_⟩
 have hk:lo+(k.toNat-lo.toNat).toUInt8=k:=by
  rw[←UInt8.toNat_inj,UInt8.toNat_add,
   show (k.toNat-lo.toNat).toUInt8.toNat=(k.toNat-lo.toNat)%256 from UInt8.toNat_ofNat']
  omega
 rw[hk]
def inForm (y:AtomItem):Form→AtomItem
 | .plain=>y
 | .wide=>{y with atom:=y.atom.widen,backtrack:=y.backtrack*2%65536}
variable {y:AtomItem}
lemma mem_withWide_iff (hb:flags.base64=false∧flags.base64Wide=false):
 x∈withWide flags [y]↔∃form:Form,form.Searched flags∧x=y.inForm form:=by
 have hf:∀{P:Form→Prop},(∃form,P form)↔P .plain∨P .wide:=
  ⟨fun⟨form,h⟩=>by cases form<;>simp[h],fun h=>h.elim (⟨_,·⟩) (⟨_,·⟩)⟩
 rw[withWide,hf]
 simp only[Searched,hb,inForm,wideForms]
 cases flags.wide<;>cases flags.ascii<;>simp
lemma values_inForm {l:List UInt8}(hl:l.length≤atomLength){bc:Nat}{e:Regex.Entry}(form:Form):
 (inForm ⟨ofBytes l,bc,e⟩ form).atom.values=(form.spread l).take atomLength:=by
 cases form with
 | plain=>
  rw[spread,take_of_length_le hl]
  exact values_ofBytes l
 | wide=>
  change (Atom.widen (ofBytes l)).values=(Bytes.wide l).take _
  rw[Atom.widen,values,map_take,map_flatMap,ofBytes,flatMap_map]
  rfl
lemma exists_withCases_iff {n:Nat}:
 (∃x∈withCases flags i,x.atom.values=v∧x.backtrack=n)↔
  ∃y∈i,Forall₂ (Alike flags.noCase) v y.atom.values∧y.backtrack=n:=by
 constructor
 ·rintro⟨x,hx,rfl,rfl⟩
  obtain⟨y,hy,hl,-,hb⟩:=alike_of_mem_withCases hx
  exact⟨y,hy,hl,hb.symm⟩
 rintro⟨y,hy,hl,rfl⟩
 have hs:y.atom.Spells flags.noCase v:=by
  rw[values,forall₂_map_right_iff]at hl
  exact hl.flip
 obtain⟨x,hx,hv,-,hb⟩:=exists_withCases hy flags hs
 exact⟨x,hx,hv,hb⟩
end AtomItem
lemma AtomList.exists_ofText_iff (r:QualityRule)(flags:StringFlags)(keys:UInt8×UInt8)
 (hba:flags.base64=false∧flags.base64Wide=false)
 (hke:flags.xor→flags.noCase=false)(text:Bytes):
 ∃start,(start=0∨start+atomLength≤text.size)∧∀v n,
  (∃x∈(ofText r flags keys text).items,x.atom.values=v∧x.backtrack=n)↔
   ∃(form:Form)(k:UInt8),form.Worded k flags keys∧form.width*start%65536=n∧
    Forall₂ (Alike flags.noCase) v
     (((form.coded k text.list).drop (form.width*start)).take atomLength):=by
 obtain⟨start,hst,hi⟩:=ofText_items r flags keys text
 refine⟨start,hst,fun v n=>?_⟩
 have hle:(text.window start).length≤atomLength:=by
  rw[window_eq]
  exact length_take_le ..
 have hv:∀(form:Form)(k:UInt8),
  ((inForm ⟨ofBytes (text.window start),start%65536,⟨none,none⟩⟩ form).atom.values.map
   (· ^^^ k))=((form.coded k text.list).drop (form.width*start)).take atomLength:=by
  intro form k
  rw[values_inForm hle,map_take,←coded,window_eq,coded_take,
   take_take,coded_drop,min_eq_left (Nat.le_mul_of_pos_left _ form.width_pos)]
 have hb:∀form:Form,(inForm
  ⟨ofBytes (text.window start),start%65536,⟨none,none⟩⟩ form).backtrack=
  form.width*start%65536:=by
  intro form
  cases form with
  | plain=>rw[width,one_mul];rfl
  | wide=>
   change start%65536*2%65536=2*start%65536
   omega
 rw[hi]
 split
 ·next hxo=>
  have hc:∀items,withCases flags items=items:=fun items=>by
   rw[withCases,hke hxo,if_neg Bool.false_ne_true]
  simp only[hc,mem_keyForms,mem_withWide_iff hba,Worded,hxo,hke hxo,forall₂_alike_false]
  constructor
  ·rintro⟨_,⟨_,⟨form,hf,rfl⟩,k,hk,rfl⟩,rfl,rfl⟩
   exact⟨form,k,⟨hf,hk⟩,(hb form).symm,by rw[←hv,values_applyKey]⟩
  ·rintro⟨form,k,⟨hf,hk⟩,rfl,rfl⟩
   exact⟨_,⟨_,⟨form,hf,rfl⟩,k,hk,rfl⟩,by rw[←hv,values_applyKey],hb form⟩
 next hxo=>
 simp only[exists_withCases_iff,mem_withWide_iff hba,Worded,hxo]
 constructor
 ·rintro⟨_,⟨form,hf,rfl⟩,hl,rfl⟩
  refine⟨form,0,⟨hf,rfl⟩,(hb form).symm,?_⟩
  rwa[←hv,map_xor_zero]
 ·rintro⟨form,k,⟨hf,rfl⟩,rfl,hl⟩
  refine⟨_,⟨form,hf,rfl⟩,?_,hb form⟩
  rwa[←hv,map_xor_zero]at hl
end PatternScan
namespace PatternScan
open PatternScan.Bytes PatternScan.Form
open Automaton (Trie)
open Regex (Node Text)
open Rule.Compiler (Ends hitsFor)
variable {ignoreCase:Bool}{l:List UInt8}{b k:UInt8}{β:Type}{text:Bytes}
/-- A text stands in some data at an offset, up to case where it is ignored. -/
def Bytes.Spelled (ignoreCase:Bool)(data:Bytes)(o:Nat)(l:List UInt8):Prop:=
 ∃w,w <+: data.list.drop o∧List.Forall₂ (Alike ignoreCase) w l
namespace Bytes
variable {data:Bytes}{o:Nat}
lemma spelled_nil:Spelled ignoreCase data o []:=⟨[],List.nil_prefix,.nil⟩
lemma spelled_false:data.Spelled false o l↔l <+: data.list.drop o:=by
 simp only[Spelled,forall₂_alike_false,exists_eq_right]
lemma spelled_cons:Spelled ignoreCase data o (b::l)↔
 (o<data.size∧Alike ignoreCase (data.byteAt o) b)∧Spelled ignoreCase data (o+1) l:=by
 constructor
 ·rintro⟨w,hw,hl⟩
  obtain⟨c,w,hc,hr,rfl⟩:=List.forall₂_cons_right_iff.1 hl
  have ho:o<data.size:=by
   have:=hw.length_le
   rw[List.length_cons,List.length_drop,length_list]at this
   omega
  rw[drop_list data ho,List.cons_prefix_cons]at hw
  exact⟨⟨ho,hw.1▸hc⟩,w,hw.2,hr⟩
 ·rintro⟨⟨ho,hc⟩,w,hw,hl⟩
  refine⟨data.byteAt o::w,?_,.cons hc hl⟩
  rw[drop_list data ho,List.cons_prefix_cons]
  exact⟨rfl,hw⟩
lemma Spelled.length_le {l:List UInt8}(h:Spelled ignoreCase data o l):l.length≤data.size-o:=by
 obtain⟨w,hw,hl⟩:=h
 have:=hw.length_le
 rwa[hl.length_eq,List.length_drop]at this
lemma Spelled.drop {l:List UInt8}(h:Spelled ignoreCase data o l)(n:Nat):
 Spelled ignoreCase data (o+n) (l.drop n):=by
 obtain⟨w,hw,hl⟩:=h
 exact⟨w.drop n,by rw[←List.drop_drop];exact hw.drop n,List.forall₂_drop n hl⟩
lemma alike_true {c:UInt8}:Alike true b c↔lower b=lower c:=
 ⟨fun h=>h.elim (congrArg lower) And.right,fun h=>.inr ⟨rfl,h⟩⟩
lemma alike_zero:Alike ignoreCase b 0↔b=0:=by
 refine⟨fun h=>h.elim id fun h=>?_,.inl⟩
 rcases eq_of_lower_eq h.2 with h|⟨hl,-⟩
 ·exact h
 ·cases hl
lemma foldlM_loop_eq (f:β→UInt8→β)(b:Bytes)(n i:Nat)(r:β)(hn:i+n=b.size):
 loop (m:=Id) (fun r c=>pure (f r c)) b b.size le_rfl n i r=(b.list.drop i).foldl f r:=by
 induction n generalizing i r with
 | zero=>
  rw[loop,dif_neg (by omega),List.drop_eq_nil_of_le (by rw[length_list];omega)]
  rfl
 | succ n ih=>
  have hi:i<b.size:=by omega
  rw[loop,dif_pos hi,drop_list b hi,List.foldl_cons,←ih (i+1) _ (by omega),byteAt,dif_pos hi]
  rfl
lemma foldl_eq (f:β→UInt8→β)(b:Bytes)(r:β):b.foldl f r=b.list.foldl f r:=by
 rw[ByteArray.foldl,ByteArray.foldlM,dif_pos le_rfl]
 exact foldlM_loop_eq f b _ 0 r (by omega)
lemma list_pushAll (g:UInt8→UInt8)(l:List UInt8)(r:Bytes):
 (l.foldl (fun r c=>r.push (g c)) r).list=r.list++l.map g:=by
 induction l generalizing r with
 | nil=>exact (List.append_nil _).symm
 | cons c l ih=>
  rw[List.foldl_cons,ih]
  simp[list]
end Bytes
namespace Scan
section
variable (data:Bytes){coded:Bytes}(o:Nat)(form:Form)
 (hcoded:coded.list=text.list.map (· ^^^ k))(view:UInt8→UInt8)
 (hview:∀b c,view b=view c↔Alike ignoreCase b c)
 (hk:∀b,Alike ignoreCase b k↔b=k)
include hcoded hview hk
lemma agreesFrom_iff (hfi:form.width*text.size≤data.size-o)(i:Nat):agreesFrom view data coded form.width k o i↔
  Spelled ignoreCase data (o+form.width*i) (form.coded k (text.list.drop i)):=by
 have hsize:coded.size=text.size:=by rw[←length_list,hcoded,List.length_map,length_list]
 induction hn:text.size-i generalizing i with
 | zero=>
  have hdo:¬i<coded.size:=by omega
  rw[agreesFrom,if_neg hdo,List.drop_eq_nil_of_le (by rw[length_list];omega),coded_nil]
  exact⟨fun _=>spelled_nil,fun _=>rfl⟩
 | succ n ih=>
  have hi:i<text.size:=by omega
  have hlt:form.width*(i+1)≤form.width*text.size:=Nat.mul_le_mul_left _ hi
  have hb:coded.byteAt i=text.byteAt i ^^^ k:=by
   have h:=congrArg (List.drop i) hcoded
   rw[←List.map_drop,drop_list text hi,drop_list coded (hsize▸hi)]at h
   exact (List.cons.inj h).1
  have hr:=ih (i+1) (by omega)
  rw[agreesFrom,if_pos (hsize▸hi),drop_list text hi]
  simp only[Bool.and_eq_true,beq_iff_eq,hview,hr,hb]
  cases form with
  | plain=>
   rw[show Form.plain.coded k (text.byteAt i::text.list.drop (i+1))=
    (text.byteAt i ^^^ k)::Form.plain.coded k (text.list.drop (i+1)) from rfl,spelled_cons]
   simp only[width]at hlt hfi⊢
   simp only[BEq.rfl,Bool.true_or,and_true]
   exact⟨fun h=>⟨⟨by omega,h.1⟩,h.2⟩,fun h=>⟨h.1.2,h.2⟩⟩
  | wide=>
   have hf:(0:UInt8) ^^^ k=k:=UInt8.zero_xor
   rw[show Form.wide.coded k (text.byteAt i::text.list.drop (i+1))=
    (text.byteAt i ^^^ k)::(0 ^^^ k)::Form.wide.coded k (text.list.drop (i+1)) from rfl,
    spelled_cons,spelled_cons,hf,hk]
   simp only[width]at hlt hfi⊢
   simp only[show ((2:Nat)==1)=false from rfl,Bool.false_or,beq_iff_eq]
   exact⟨fun h=>⟨⟨by omega,h.1.1⟩,⟨by omega,h.1.2⟩,h.2⟩,fun h=>⟨⟨h.1.2,h.2.1.2⟩,h.2.2⟩⟩
open Classical in
lemma textLength_eq : textLength view data coded form.width k o=
 if Spelled ignoreCase data o (form.coded k text.list) then form.width*text.size else 0:=by
 have hsize:coded.size=text.size:=by
  rw[←length_list,hcoded,List.length_map,length_list]
 rw[textLength,hsize]
 split
 ·next hsh=>
  rw[if_neg fun h=>?_]
  have:=h.length_le
  rw[length_coded,length_list]at this
  omega
 ·next hf=>
  have hi:=agreesFrom_iff data o form hcoded view hview hk (not_lt.1 hf) 0
  rw[mul_zero,add_zero,List.drop_zero]at hi
  simp only[hi]
end
lemma key_of_spelled {data:Bytes}{o:Nat}{form:Form}{byte:UInt8}
 (h:Spelled false data o (form.coded k (byte::l))):k=data.byteAt o ^^^ byte:=by
 have hf:data.byteAt o=byte ^^^ k:=by cases form<;>exact alike_false.1 (spelled_cons.1 h).1.2
 rw[hf,UInt8.xor_comm,←UInt8.xor_assoc,UInt8.xor_self,UInt8.zero_xor]

/-- A length is the one of a wording that stands at an offset, one of those that are tried, or zero if none does. -/
structure Measured (ignoreCase:Bool)(data text:Bytes)(o:Nat)(T:Form→UInt8→Prop)
 (n:Nat):Prop where
 spelled:n≠0→∃form k,T form k∧n=form.width*text.size∧Spelled ignoreCase data o (form.coded k text.list)
 found:∀form k,T form k→Spelled ignoreCase data o (form.coded k text.list)→n≠0
namespace Measured
variable {data:Bytes}{o:Nat}{T T':Form→UInt8→Prop}{n n':Nat}
section
variable (h:Measured ignoreCase data text o T n)
include h
lemma congr (hT:∀form k,T' form k↔T form k):Measured ignoreCase data text o T' n where
 spelled hn:=
  let ⟨form,k,hk,hs⟩:=h.spelled hn
  ⟨form,k,(hT form k).2 hk,hs⟩
 found form k hk:=h.found form k ((hT form k).1 hk)
lemma or (h':Measured ignoreCase data text o T' n'):
 Measured ignoreCase data text o (fun form k=>T form k ∨ T' form k) (if n=0 then n' else n) where
 spelled hn:=by
  split at hn
  ·next hz=>
   obtain⟨form,k,hk,hs⟩:=h'.spelled hn
   exact⟨form,k,.inr hk,by rwa[if_pos hz]⟩
  ·next hz=>
   obtain⟨form,k,hk,hs⟩:=h.spelled hn
   exact⟨form,k,.inl hk,by rwa[if_neg hz]⟩
 found form k hk hs:=by
  split
  ·next hz=>exact h'.found form k (hk.resolve_left fun hk=>h.found form k hk hs hz) hs
  ·next hz=>exact hz
lemma guard (p:Bool):Measured ignoreCase data text o (fun form k=>p∧T form k) (if p then n else 0):=by
 cases p with
 | false=>exact⟨nofun,fun _ _ hk=>nomatch hk.1⟩
 | true=>exact h.congr fun _ _=>and_iff_right rfl
end
variable (hne:0<text.size)
include hne
lemma of_text (form:Form)(view:UInt8→UInt8)(hview:∀b c,view b=view c↔Alike ignoreCase b c):
 Measured ignoreCase data text o (fun f k=>f=form∧k=0) (textLength view data text form.width 0 o):=by
 classical
 rw[textLength_eq data o form (map_xor_zero _).symm view hview fun _=>alike_zero]
 refine⟨fun hn=>?_,?_⟩
 ·have hs:=of_not_not fun hs=>hn (if_neg hs)
  exact⟨form,0,⟨rfl,rfl⟩,if_pos hs,hs⟩
 ·rintro _ _ ⟨rfl,rfl⟩ hs
  rw[if_pos hs]
  exact (Nat.mul_pos (width_pos _) hne).ne'
lemma of_key (form:Form):Measured false data text o (fun f _=>f=form)
 (xorLength data text form.width o).1:=by
 classical
 have hl:list (text.foldl (fun b c=>b.push (c ^^^ (data.byteAt o ^^^ text.byteAt 0)))
  ByteArray.empty)=text.list.map (· ^^^ (data.byteAt o ^^^ text.byteAt 0)):=by
  rw[foldl_eq,list_pushAll]
  rfl
 have hle:(xorLength data text form.width o).1=if Spelled false data o
  (form.coded (data.byteAt o ^^^ text.byteAt 0) text.list) then form.width*text.size else 0:=by
  rw[←textLength_eq data o form hl id (fun _ _=>Bytes.alike_false.symm) fun _=>alike_false,xorLength]
  split
  ·next hz=>exact (beq_iff_eq.1 hz).symm
  ·rfl
 rw[hle]
 refine⟨fun hn=>?_,?_⟩
 ·have hs:=of_not_not fun hs=>hn (if_neg hs)
  exact⟨form,_,rfl,if_pos hs,hs⟩
 rintro _ k rfl hs
 have hke:k=data.byteAt o ^^^ text.byteAt 0:=by
  have hh:text.list=text.byteAt 0::text.list.drop 1:=drop_list text hne
  rw[hh]at hs
  exact key_of_spelled hs
 rw[←hke,if_pos hs]
 exact (Nat.mul_pos (width_pos _) hne).ne'
end Measured
/-- A string with a text that is looked for anywhere in a block. -/
structure Texted (s:RuleString):Prop where
 literal:s.flags.literal=true
 fixed:s.flags.fixedOffset=false
 form:s.flags.ascii=true∨s.flags.wide=true
 keyed:s.flags.xor=true→s.flags.noCase=false
 base:s.flags.base64=false∧s.flags.base64Wide=false
 fits:s.flags.fitsInAtom=decide (s.extent≤atomLength)
 nonempty:0<s.text.size
variable {s:RuleString}{data:Bytes}{o:Nat}
lemma searched_iff {flags:StringFlags}(hf:flags.ascii∨flags.wide)
 (hb:flags.base64=false∧flags.base64Wide=false)(f:Form):f.Searched flags↔
 flags.ascii∧f=.plain∨flags.wide∧f=.wide:=by
 cases f<;>simp only[Searched]<;>grind
lemma Texted.searched_iff (h:Texted s)(f:Form):f.Searched s.flags↔
 s.flags.ascii∧f=.plain∨s.flags.wide∧f=.wide:=Scan.searched_iff h.form h.base f
lemma literalLength_fits (hf:s.flags.fitsInAtom)(n:Nat):(literalLength s n data o).1=n:=by
 rw[literalLength,hf]
 simp only[if_true]
 split<;>rfl
lemma width_le_extent {f:Form}(hf:f.Tried k s.flags):f.width*s.text.size ≤ s.extent:=by
 rw[extent]
 cases f with
 | plain=>
  rw[width]
  split<;>omega
 | wide=>rw[if_pos (hf.1 rfl),width]
lemma Texted.measured (h:Texted s)(hfi:s.flags.fitsInAtom=false)(n:Nat):
 Measured s.flags.noCase data s.text o (fun f k=>f.Tried k s.flags) (literalLength s n data o).1:=by
 have hp:∀view,(∀b c,view b=view c↔Alike s.flags.noCase b c)→
  Measured s.flags.noCase data s.text o (fun f k=>f.Searched s.flags∧k=0)
   (let n:=if s.flags.ascii then textLength view data s.text 1 0 o else 0
   if s.flags.wide&&n==0 then textLength view data s.text 2 0 o else n):=by
  intro view hview
  have hf:∀form,Measured _ data s.text o _ _:=(Measured.of_text h.nonempty · view hview)
  have hb:=((hf .plain).guard s.flags.ascii).or ((hf .wide).guard s.flags.wide)
  have hl:∀{a m:Nat},(if (s.flags.wide&&a==0) then m else a)=
   if a=0 then if s.flags.wide then m else 0 else a:=by
   cases s.flags.wide<;>simp
  rw[hl]
  refine hb.congr fun f k=>?_
  rw[h.searched_iff]
  tauto
 rw[literalLength,hfi]
 cases hxo:s.flags.xor with
 | false=>
  have ht:∀(f:Form) k,f.Tried k s.flags↔f.Searched s.flags∧k=0:=by
   intro f k
   rw[Tried,hxo,h.searched_iff]
   grind
  cases hc:s.flags.noCase with
  | false=>
   rw[hc]at hp
   simpa[ht]using hp id fun _ _=>Bytes.alike_false.symm
  | true=>
   rw[hc]at hp
   simpa[ht]using hp _ fun _ _=>Bytes.alike_true.symm
 | true=>
  have hc:=h.keyed hxo
  rw[hc]at hp⊢
  have hal:=(hp id fun _ _=>Bytes.alike_false.symm).or
   (((Measured.of_key h.nonempty .wide).guard s.flags.wide).or (Measured.of_key h.nonempty .plain))
  have hl:∀{a:Nat} {x y:Nat×UInt8},(if (a==0) then
   if 0<(if s.flags.wide then x else (0,0)).1 then
    (if s.flags.wide then x else (0,0)) else y else (a,0)).1=
   if a=0 then if (if s.flags.wide then x.1 else 0)=0 then y.1
    else if s.flags.wide then x.1 else 0 else a:=by
   cases s.flags.wide<;>grind
  simp only[Bool.false_eq_true,if_false,Bool.true_and]
  rw[hl]
  refine hal.congr fun f k=>?_
  rw[Tried,hxo,h.searched_iff]
  cases f<;>grind
end Scan
namespace Regex.Node
variable {x:Text}(hx:x.wide=false)
include hx
lemma occurs_byte {v:Bool}{s e:Nat}:(literal b v).Occurs x s e↔
 e=s+1∧s<x.data.size∧Alike x.comparison.ignoreCase (x.data.byteAt s) b:=by
 have hw:x.width=1:=by rw[Text.width,hx];rfl
 have ht:(literal b v).takes x.comparison (x.data.byteAt s)↔
  Alike x.comparison.ignoreCase (x.data.byteAt s) b:=by
  rw[takes]
  cases x.comparison.ignoreCase with
  | false=>simp[alike_false]
  | true=>simp[alike_true]
 change x.Takes _ s e↔_
 rw[Text.Takes,Text.HasCharacter,ht,hw,hx]
 simp
lemma occursList_bytes (ns:List Node):∀(l:List UInt8),literalBytes? ns=some l→∀s e,OccursList x ns s e↔
  e=s+l.length∧Spelled x.comparison.ignoreCase x.data s l:=by
 induction ns with
 | nil=>
  rintro l hl s e
  cases hl
  exact⟨fun h=>⟨h.symm,spelled_nil⟩,fun h=>h.1.symm⟩
 | cons n _ ih=>
  rintro l hl s e
  cases n with
  | literal b v=>
   obtain⟨l,hr,rfl⟩:=Option.map_eq_some_iff.1 hl
   rw[spelled_cons,List.length_cons]
   constructor
   ·rintro⟨m,hm,ht⟩
    obtain⟨rfl,hb⟩:=(occurs_byte hx).1 hm
    obtain⟨rfl,hsp⟩:=(ih l hr _ _).1 ht
    exact⟨by omega,hb,hsp⟩
   ·rintro⟨rfl,hb,hs⟩
    exact⟨s+1,(occurs_byte hx).2 ⟨rfl,hb⟩,(ih l hr _ _).2 ⟨by omega,hs⟩⟩
  | _=>cases hl
lemma occurs_text {n:Node}(h:n.literal?=some text)(s e:Nat):n.Occurs x s e↔
  e=s+text.size∧Spelled x.comparison.ignoreCase x.data s text.list:=by
 cases n with
 | literal b v=>
  cases h
  change _↔e=s+1∧Spelled _ _ s [b]
  rw[occurs_byte hx,spelled_cons]
  simp only[spelled_nil,and_true]
 | cat p=>
  obtain⟨l,hl,rfl⟩:=Option.map_eq_some_iff.1 h
  exact occursList_bytes hx p l hl s e
 | _=>cases h
end Regex.Node
namespace Scan
variable {c:SearchSetting}{b:Block}{j:Nat}
lemma hitsFor_eq (hf:(c.set.string j).flags.fixedOffset=false)(x:AtomItem)(i:Nat):
 hitsFor c b (j,x) i=if b.data.size ≤ i-Trie.distance x then (.success,[])
  else if (c.set.string j).flags.literal then
   (.success,literalHits c b j (Trie.distance x) (i-Trie.distance x))
  else patternHits c b j x.entry (i-Trie.distance x):=by
 rw[hitsFor,hits]
 simp only[hf,Bool.false_and,Bool.or_false,decide_eq_true_eq]
lemma Texted.hitsFor_eq (h:Texted (c.set.string j))(x:AtomItem)(i:Nat):
 hitsFor c b (j,x) i=(.success,if b.data.size ≤ i-Trie.distance x then []
  else literalHits c b j (Trie.distance x) (i-Trie.distance x)):=by
 rw[Scan.hitsFor_eq h.fixed,h.literal]
 split<;>rfl

/-- The items of a string are cut from the wordings of its text. -/
structure Cut (s:RuleString)(keys:UInt8×UInt8)(R:AtomItem→Prop)(start:Nat):Prop where
 inside:start=0∨start+atomLength ≤ s.text.size
 items:∀v n,(∃x,R x∧x.atom.values=v∧x.backtrack=n)↔
  ∃(form:Form)(k:UInt8),form.Worded k s.flags keys∧form.width*start%65536=n∧
   List.Forall₂ (Alike s.flags.noCase) v
    (((form.coded k s.text.list).drop (form.width*start)).take atomLength)

/-- The wordings that are tried where an atom was found are those that the string is searched in. -/
def Exact (flags:StringFlags)(keys:UInt8×UInt8)(size:Nat):Prop:=
 flags.xor=true→flags.wide=true→2*size≤atomLength∨flags.ascii=true∧keys=(0,255)
section
variable {keys:UInt8×UInt8}{R:AtomItem→Prop}{start:Nat}(h:Texted (c.set.string j))
 (ha:Cut (c.set.string j) keys R start)(hsize:(c.set.string j).extent<65536)
include h ha hsize
lemma Texted.spelled_of_hit {x:AtomItem}(hx:R x){i:Nat}
 (hdi:Trie.distance x=x.atom.length+x.backtrack)(he:Ends b x i){hit:Hit}
 (hh:hit∈(hitsFor c b (j,x) i).2):
 ∃(form:Form)(k:UInt8),form.Tried k (c.set.string j).flags∧
  (Exact (c.set.string j).flags keys (c.set.string j).text.size→form.Worded k (c.set.string j).flags keys)∧
  hit.length=form.width*(c.set.string j).text.size∧
  b.data.Spelled (c.set.string j).flags.noCase hit.offset (form.coded k (c.set.string j).text.list):=by
 obtain⟨form0,k0,hw,hb,hl⟩:=(ha.items _ _).1 ⟨x,hx,rfl,rfl⟩
 have hi:=he.distance
 rw[h.hitsFor_eq]at hh
 split at hh
 ·cases hh
 rw[literalHits]at hh
 split at hh
 ·cases hh
 next hn=>
 cases List.mem_singleton.1 hh
 have hfo:atomLength=4:=rfl
 have hpo:=h.nonempty
 have hin:=ha.inside
 have hde:=h.fits
 obtain⟨hle,hst⟩:=he.values_prefix
 cases hfi:(c.set.string j).flags.fitsInAtom with
 | true=>
  rw[hfi]at hde
  have hsm:=of_decide_eq_true hde.symm
  have hwd:=width_le_extent hw.tried
  have ho:=Nat.le_mul_of_pos_left (c.set.string j).text.size form0.width_pos
  have hz:start=0:=by omega
  rw[hz,mul_zero]at hb hl
  rw[List.drop_zero,List.take_of_length_le (by rw[length_coded,length_list];omega)]at hl
  have hsize:x.atom.length=form0.width*(c.set.string j).text.size:=by
   rw[←length_list,←length_coded,←hl.length_eq,values,List.length_map]
  have hwh:Trie.distance x=x.atom.length:=by omega
  refine⟨form0,k0,hw.tried,fun _=>hw,?_,?_⟩
  ·rw[literalLength_fits hfi,hwh,hsize]
  ·rw[hwh]
   exact⟨_,hst,hl⟩
 | false=>
  obtain⟨form,k,ht,hle,hs⟩:=(h.measured hfi _).spelled (by simpa using hn)
  refine⟨form,k,ht,fun hex=>?_,hle,hs⟩
  cases hxo:(c.set.string j).flags.xor with
  | false=>exact⟨(ht.2 hxo).1,by rw[hxo];exact (ht.2 hxo).2⟩
  | true=>
  cases hwi:(c.set.string j).flags.wide with
  | true=>
   rw[hfi,extent,hwi]at hde
   obtain⟨has,hke⟩:=(hex hxo hwi).resolve_left (of_decide_eq_false hde.symm)
   refine⟨(h.searched_iff form).2 ?_,?_⟩
   ·cases form with
    | plain=>exact .inl ⟨has,rfl⟩
    | wide=>exact .inr ⟨hwi,rfl⟩
   ·rw[hxo,hke]
    exact⟨UInt8.zero_le,UInt8.le_iff_toNat_le.2 (Nat.le_of_lt_succ k.toNat_lt)⟩
  | false=>
   -- The atom fixes the key, because it was cut from the plain form too.
   have hp:∀{f:Form} {k},f.Tried k (c.set.string j).flags→f=.plain:=by
    rintro (_|_) k hf
    ·rfl
    ·rw[hf.1 rfl]at hwi
     cases hwi
   obtain rfl:=hp ht
   obtain rfl:=hp hw.tried
   have hky:k=k0:=by
    have hlt:start<(c.set.string j).text.size:=by omega
    have hnr:x.backtrack=start:=by
     have:=width_le_extent ht
     rw[width]at hb this
     omega
    have hat:i-Trie.distance x+start=i-x.atom.length:=by omega
    have hr:=hs.drop (Form.plain.width*start)
    rw[h.keyed hxo,←coded_drop,drop_list _ hlt,width,one_mul,hat]at hr
    rw[h.keyed hxo,←coded_drop,show atomLength=Form.plain.width*4 from rfl,←coded_take,drop_list _ hlt]at hl
    have hato:Spelled false b.data (i-x.atom.length) _:=⟨_,hst,hl⟩
    exact (key_of_spelled hr).trans (key_of_spelled hato).symm
   rwa[hky]
lemma Texted.exists_hit (hdi:∀x,R x→Trie.distance x=x.atom.length+x.backtrack){form:Form}
 (hwo:form.Worded k (c.set.string j).flags keys){o:Nat}
 (ho:b.data.Spelled (c.set.string j).flags.noCase o (form.coded k (c.set.string j).text.list)):
 ∃x,R x∧∃i,Ends b x i∧∃hit∈(hitsFor c b (j,x) i).2,hit.offset=o:=by
 have hp:=h.nonempty
 have hfo:atomLength=4:=rfl
 have hr:=ho.length_le
 rw[length_coded,length_list]at hr
 obtain⟨w,hw,hl⟩:=id ho
 have hi:form.width*start<form.width*(c.set.string j).text.size:=by
  refine Nat.mul_lt_mul_of_pos_left ?_ form.width_pos
  have:=ha.inside
  omega
 have hs:=width_le_extent hwo.tried
 -- the atom is what stands at the place of the window
 obtain⟨x,hx,hv,hb⟩:=(ha.items ((w.drop (form.width*start)).take atomLength)
  (form.width*start)).2 ⟨form,k,hwo,Nat.mod_eq_of_lt (by omega),List.forall₂_take _ (List.forall₂_drop _ hl)⟩
 have hdi:=hdi x hx
 have hle:x.atom.length=min atomLength (form.width*(c.set.string j).text.size-form.width*start):=by
  rw[←length_list,←length_coded form k,←hl.length_eq,←List.length_drop,
   ←List.length_take,←hv,values,List.length_map]
 have he:Ends b x (o+form.width*start+x.atom.length):=by
  refine Rule.Compiler.ends_of_prefix (by omega) ?_ (by omega)
  rw[hv,←List.drop_drop]
  exact ( List.take_prefix _ _).trans (hw.drop (form.width*start))
 refine⟨x,hx,_,he,?_⟩
 have hm:o+form.width*start+x.atom.length-Trie.distance x=o:=by omega
 have hlo:((literalLength (c.set.string j) (Trie.distance x) b.data o).1==0)=false:=by
  rw[beq_eq_false_iff_ne]
  cases hf:(c.set.string j).flags.fitsInAtom with
  | false=>exact (h.measured hf _).found form k hwo.tried ho
  | true=>
   rw[literalLength_fits hf]
   omega
 rw[h.hitsFor_eq,hm,literalHits,hlo,if_neg (by omega)]
 exact⟨_,List.mem_singleton_self _,rfl⟩
end
end Scan
end PatternScan
