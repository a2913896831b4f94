import PatternScan.Proofs.Scan.Literals
/-! A text whose base64 form is searched has one form for each place in a group of three bytes. -/
open List Nat
namespace PatternScan.Base64
open Regex.Reader Bytes Limits Regex.Node
open Regex (Node Reader Text Token Traits)
variable {p rest:List UInt8}{j n i fuel depth:Nat}{src tx:Bytes}{t0:Token}{fl:StringFlags}{k:Nat}{wide:Bool}{l s t g:List UInt8}{alphabet:Bytes}
def sextet (l:List UInt8)(k:Nat):Nat:=
 ((l.getD (6*k/8) 0).toNat*256+(l.getD (6*k/8+1) 0).toNat)/2^(10-6*k%8)%64
lemma sextet_drop (l:List UInt8)(m k:Nat):sextet l (k+4*m)=sextet (l.drop (3*m)) k:=by
 have hi:6*(k+4*m)/8=3*m+6*k/8:=by omega
 have ho:6*(k+4*m)%8=6*k%8:=by omega
 rw[sextet,sextet,hi,ho]
 simp only[getD_eq_getElem?_getD,getElem?_drop,add_assoc]
section
variable (a b c:UInt8)
lemma toNat_low:(c &&& 63).toNat=c.toNat%64:=by exact and_two_pow_sub_one_eq_mod c.toNat 6
lemma toNat_left:((a &&& 3) <<< 4).toNat=a.toNat%4*16:=by
 have h:(a &&& 3).toNat=a.toNat%4:=and_two_pow_sub_one_eq_mod a.toNat 2
 rw[UInt8.toNat_shiftLeft,h,shiftLeft_eq]
 exact mod_eq_of_lt (by simp;omega)
lemma toNat_right:((b &&& 15) <<< 2).toNat=b.toNat%16*4:=by
 have h:(b &&& 15).toNat=b.toNat%16:=and_two_pow_sub_one_eq_mod b.toNat 4
 rw[UInt8.toNat_shiftLeft,h,shiftLeft_eq]
 exact mod_eq_of_lt (by simp;omega)
lemma toNat_second:(((a &&& 3) <<< 4) ||| (b >>> 4)).toNat=a.toNat%4*16+b.toNat/16:=by
 have hb:=b.toNat_lt
 have hs:(b >>> 4).toNat=b.toNat/16:=by simp[shiftRight_eq_div_pow]
 rw[UInt8.toNat_or,toNat_left,hs,←shiftLeft_eq _ 4]
 exact (shiftLeft_add_eq_or_of_lt (by omega) _).symm
lemma toNat_third:(((b &&& 15) <<< 2) ||| (c >>> 6)).toNat=b.toNat%16*4+c.toNat/64:=by
 have hc:=c.toNat_lt
 have hs:(c >>> 6).toNat=c.toNat/64:=by simp[shiftRight_eq_div_pow]
 rw[UInt8.toNat_or,toNat_right,hs,←shiftLeft_eq _ 2]
 exact (shiftLeft_add_eq_or_of_lt (by omega) _).symm
end
lemma encode_getElem? (alphabet:Bytes)(l:List UInt8)(h:6*k<8*l.length):
 (encode alphabet l)[k]?=some (alphabet.byteAt (sextet l k)):=by
 have hs {n:UInt8} {d:Nat} (hn:n.toNat=d):
  some (encode.symbol alphabet n)=some (alphabet.byteAt d):=by rw[encode.symbol,hn]
 fun_induction encode alphabet l generalizing k with
 | case1=>simp at h
 | case2 a=>
  have ha:=a.toNat_lt
  obtain rfl|rfl:k=0∨k=1:=by simp at h;omega
  ·exact hs (by simp[sextet];omega)
  ·exact hs (by rw[toNat_left];simp[sextet];omega)
 | case3 a b=>
  have ha:=a.toNat_lt
  have hb:=b.toNat_lt
  obtain rfl|rfl|rfl:k=0∨k=1∨k=2:=by simp at h;omega
  ·exact hs (by simp[sextet];omega)
  ·exact hs (by rw[toNat_second];simp[sextet];omega)
  ·exact hs (by rw[toNat_right];simp[sextet];omega)
 | case4 a b c rest ih=>
  have ha:=a.toNat_lt
  have hb:=b.toNat_lt
  have hc:=c.toNat_lt
  have hd:=(rest[0]?.getD 0).toNat_lt
  match k with
  | 0=>exact hs (by simp[sextet];omega)
  | 1=>exact hs (by rw[toNat_second];simp[sextet];omega)
  | 2=>exact hs (by rw[toNat_third];simp[sextet];omega)
  | 3=>exact hs (by rw[toNat_low];simp[sextet];omega)
  | k+4=>
   rw[show sextet (a::b::c::rest) (k+4)=sextet rest k from sextet_drop _ 1 k]
   exact ih (by simp at h;omega)
lemma length_encode (alphabet:Bytes)(l:List UInt8):(encode alphabet l).length=(l.length+2)/3*4:=by
 fun_induction encode alphabet l with
 | case1 | case2 | case3=>simp
 | case4 a b c _ _=>
  simp only[length_cons]
  omega
lemma sextet_congr {l':List UInt8}(hf:l.getD (6*k/8) 0=l'.getD (6*k/8) 0)
 (hs:2<6*k%8→l.getD (6*k/8+1) 0=l'.getD (6*k/8+1) 0):sextet l k=sextet l' k:=by
 rw[sextet,sextet,hf]
 by_cases hr:2<6*k%8
 ·rw[hs hr]
 ·have hy:=(l.getD (6*k/8+1) 0).toNat_lt
  have hy':=(l'.getD (6*k/8+1) 0).toNat_lt
  obtain h|h:6*k%8=0∨6*k%8=2:=by omega
  all_goals rw[h];omega
lemma getD_middle (q:List UInt8)(hp:p.length≤j)
 (hs:j<p.length+s.length):(p++s++q).getD j 0=s.getD (j-p.length) 0:=by
 grind
lemma sextet_middle {p':List UInt8}(q q':List UInt8)(hl:p'.length=p.length)
 (hp:8*p.length≤6*k)(hs:6*k+6≤8*(p.length+s.length)):
 sextet (p++s++q) k=sextet (p'++s++q') k:=by
 refine sextet_congr ?_ fun hr=>?_
 all_goals rw[getD_middle q (by omega) (by omega),getD_middle q' (by omega) (by omega),hl]

/-- The symbol at an index is the same for all bytes around a text that stands behind `n` bytes. -/
def Determined (s:List UInt8)(n k:Nat):Prop:=∀p p' q q':List UInt8,p.length=n→
 p'.length=n→sextet (p++s++q) k=sextet (p'++s++q') k
lemma determined_iff:Determined s n k↔8*n≤6*k∧6*k+6≤8*(n+s.length):=by
 constructor
 ·intro h
  -- All bytes around the text are zero once, and have all bits the other time.
  replace h:=h (List.replicate n 0) (List.replicate n 255) (List.replicate (k+2) 0)
   (List.replicate (k+2) 255) (length_replicate ..) (length_replicate ..)
  have hbf {c:UInt8} {j:Nat} (hj:j<n):(List.replicate n c++s++List.replicate (k+2) c).getD j 0=c:=by
   rw[append_assoc,getD_append _ _ _ _ (by simpa using hj),getD_replicate _ hj]
  have hbe {c:UInt8} {j:Nat} (hj:n+s.length≤j) (hk:j<k+2):
   (List.replicate n c++s++List.replicate (k+2) c).getD j 0=c:=by
   rw[getD_append_right _ _ _ _ (by simpa using hj),getD_replicate _ (by omega)]
  have hz:(0:UInt8).toNat=0:=rfl
  have ho:(255:UInt8).toNat=255:=rfl
  have hse (c:UInt8):=
   ((List.replicate n c++s++List.replicate (k+2) c).getD (6*k/8+1) 0).toNat_lt
  have hy:=hse 0
  have hy':=hse 255
  rw[sextet,sextet]at h
  have hr:6*k%8=0∨6*k%8=2∨6*k%8=4∨6*k%8=6:=by omega
  by_contra hou
  by_cases hin:6*k<8*n∨n+s.length≤6*k/8
  ·have hb (c:UInt8):(List.replicate n c++s++List.replicate (k+2) c).getD (6*k/8) 0=c:=
    hin.elim (fun h=>hbf (by omega)) fun h=>hbe h (by omega)
   rw[hb,hb,hz]at h
   rcases hr with hr|hr|hr|hr<;>rw[hr]at h<;>omega
  ·rw[hbe (j:=6*k/8+1) (by omega) (by omega),hbe (j:=6*k/8+1) (by omega) (by omega)]at h
   rcases hr with hr|hr|hr|hr<;>rw[hr]at h<;>omega
 ·rintro⟨hp,hs⟩ p p' q q' rfl hl
  exact sextet_middle q q' hl hp hs
def first (n:Nat):Nat:=(4*n+2)/3

/-- What stands in the symbols of every text that has `s` behind `n` bytes, and cannot be longer. -/
structure LongestRun (alphabet:Bytes)(s:List UInt8)(n:Nat)(f:List UInt8):Prop where
 stands:∀p q:List UInt8,p.length=n→f <+: (encode alphabet (p++s++q)).drop (first n)
 longest:∀k,Determined s n k↔first n≤k∧k<first n+f.length
section
variable (alphabet:Bytes)(s:List UInt8)
lemma form_eq {shift:Nat}(h:shift<3):form alphabet s shift=
 ((encode alphabet (List.replicate shift 65++s)).drop (first shift)).take (4*(shift+s.length)/3-first shift):=by
 have hl:(if shift=0 then 0 else shift+1)=first shift:=by
  unfold first
  split<;>omega
 rw[form,hl,length_encode,length_append,length_replicate]
 congr 1
 split_ifs<;>omega
lemma form_getElem? (p q:List UInt8)(hp:p.length=n)(hj:first n+j<4*(n+s.length)/3):
 (form alphabet s (n%3))[j]?=some (alphabet.byteAt (sextet (p++s++q) (first n+j))):=by
 have hf:first n=first (n%3)+4*(n/3):=by unfold first;omega
 have hs:n%3<3:=mod_lt n (by decide)
 have hl:8*(n%3)≤6*first (n%3):=by unfold first;omega
 rw[form_eq alphabet s hs,getElem?_take_of_lt (by omega),getElem?_drop,
  encode_getElem? _ _ (by simp;omega),hf,add_right_comm,sextet_drop,append_assoc p,
  drop_append_of_le_length (by omega),←append_assoc]
 rw[←append_nil (List.replicate _ _++s)]
 refine congrArg (some ∘ alphabet.byteAt) (sextet_middle _ _ ?_ ?_ ?_)
 all_goals simp only[length_replicate,length_drop];omega
lemma length_form (n:Nat):(form alphabet s (n%3)).length=4*(n+s.length)/3-first n:=by
 rw[form_eq alphabet s (mod_lt n (by decide)),length_take,length_drop,length_encode,length_append,length_replicate]
 have hf:first n=first (n%3)+4*(n/3):=by unfold first;omega
 omega
lemma form_longest (n:Nat):LongestRun alphabet s n (form alphabet s (n%3)) where
 stands p q hp:=by
  refine prefix_iff_getElem?.2 fun j hj=>?_
  rw[length_form]at hj
  rw[getElem?_drop,encode_getElem? _ _ (by simp;omega),
   ←form_getElem? alphabet s p q hp (by omega),getElem?_eq_getElem]
 longest k:=by
  rw[determined_iff,length_form]
  unfold first
  omega
end
/-! ## The text of the alternatives is read again -/
def Follows (src:Bytes)(i:Nat)(l:List UInt8):Prop:=src.list.drop i=l
section
variable {c:UInt8}
lemma Follows.byte (h:Follows src i (c::l)):src.byteAt i=c:=by
 have hi:i<src.size:=by
  by_contra hi
  rw[Follows,drop_eq_nil_of_le (by rw[length_list];omega)]at h
  nomatch h
 rw[Follows,drop_list src hi]at h
 exact (cons.inj h).1
lemma Follows.append (h:Follows src i (l++rest)):Follows src (i+l.length) rest:=by rw[Follows,←drop_drop,h,drop_left]
lemma Follows.tail (h:Follows src i (c::l)):Follows src (i+1) l:=append (l:=[c]) h
lemma Follows.finish (h:Follows src i []):src.byteAt i=0:=by
 have hi:=drop_eq_nil_iff.1 h
 exact dif_neg (not_lt.2 hi)
abbrev Sees (src:Bytes)(i:Nat)(t:Token)(j:Nat):Prop:=Token.read src false i=.ok ⟨t,j,false⟩
def byteNode (c:UInt8):Node:=.literal c (c≠0&&!isSpecial c)
lemma sees_escaped (h:Follows src i (escaped c++rest)):
 Sees src i (.byte c (c≠0&&!isSpecial c)) (i+(escaped c).length):=by
 unfold escaped at h⊢
 split_ifs at h⊢ with hz hs
 ·subst hz
  simp[Sees,Token.read,Token.escape,h.byte,h.tail.byte,h.tail.tail.byte,h.tail.tail.tail.byte,
   isDigit,isHexDigit,hexValue,Except.map]
 ·have h0:=h.byte
  have h1:=h.tail.byte
  simp only[isSpecial,contains_eq_mem,mem_cons,not_mem_nil,or_false,decide_eq_true_eq]at hs
  rcases hs with rfl|rfl|rfl|rfl|rfl|rfl|rfl|rfl|rfl|rfl|rfl|rfl|rfl|rfl|rfl
  all_goals simp[Sees,Token.read,Token.escape,h0,h1,isDigit,isSpecial,Except.map]
 ·have h0:=h.byte
  simp only[isSpecial,contains_eq_mem,mem_cons,decide_eq_true_eq,not_or]at hs
  simp[Sees,Token.read,h0,hz,hs,isSpecial]
def looking (src:Bytes)(t:Token)(i:Nat):Reader:=⟨src,false,t,i,false,Traits.none⟩
variable {t:Token}
lemma advance_looking (h:Sees src i t j)(t0:Token):(looking src t0 i).advance=.ok (looking src t j):=by
 unfold advance looking
 rw[h]
 rfl
def Plain (t:Token):Prop:=t=.bar∨t=.close∨t=.done∨∃c v,t=.byte c v
lemma Plain.repetition (h:Plain t)(n:Node):(looking src t j).repetition n=.ok (n,looking src t j):=by
 obtain rfl|rfl|rfl|⟨c,v,rfl⟩:=h<;>rfl
lemma sees_bar (h:Follows src i (124::rest)):Sees src i .bar (i+1):=by simp[Sees,Token.read,h.byte]
lemma sees_close (h:Follows src i (41::rest)):Sees src i .close (i+1):=by simp[Sees,Token.read,h.byte]
lemma sees_written (h:Follows src i (written l++rest))(he:Sees src (i+(written l).length) t j)
 (ht:t=.bar∨t=.close):∃t' k,Sees src i t' k∧Plain t'∧(l≠[]→starts t'):=by
 cases l with
 | nil=>exact⟨t,j,he,ht.imp_right .inl,fun h=>absurd rfl h⟩
 | cons c l=>
  rw[written,flatMap_cons,append_assoc]at h
  exact⟨_,_,sees_escaped h,.inr (.inr (.inr ⟨c,_,rfl⟩)),fun _=>rfl⟩
lemma concatenation_written {d:List Node}
 (h:Follows src i (written l++rest))(hr:Sees src i t0 k)
 (he:Sees src (i+(written l).length) t j)(ht:t=.bar∨t=.close)
 (hso:d≠[]∨l≠[])(hf:l.length+2≤fuel)(hde:depth+2<parserDepth):
 concatenation fuel depth (looking src t0 k) d=
  .ok (.cat (d.reverse++l.map byteNode),looking src t j):=by
 induction l generalizing i k t0 d fuel with
 | nil=>
  obtain⟨fuel,rfl⟩:∃n,fuel=n+1:=⟨fuel-1,by omega⟩
  cases hr.symm.trans he
  have hs:starts t=false:=by obtain rfl|rfl:=ht<;>rfl
  have hdo:d.isEmpty=false:=by simpa using hso
  rw[concatenation]
  simp[looking,hs,hdo]
 | cons c l ih=>
  obtain⟨fuel,rfl⟩:∃n,fuel=n+2:=⟨fuel-2,by omega⟩
  rw[written,flatMap_cons,append_assoc]at h
  rw[written,flatMap_cons,length_append,←add_assoc]at he
  cases hr.symm.trans (sees_escaped h)
  obtain⟨t1,k1,hr',hp,-⟩:=sees_written h.append he ht
  have hi:item (fuel+1) (if d.isEmpty then depth else depth+1)
   (looking src (.byte c (c≠0&&!isSpecial c)) (i+(escaped c).length))=.ok (byteNode c,looking src t1 k1):=by
   rw[item,if_neg (by split<;>omega)]
   rw[advance_looking hr']
   exact hp.repetition _
  rw[concatenation,hi]
  refine (ih h.append hr' he (.inl (cons_ne_nil (byteNode c) d)) ?_).trans (by simp)
  simp at hf
  omega
def formNode (l:List UInt8):Node:=.cat (l.map byteNode)
def tree (left:Node)(fs:List (List UInt8)):Node:=fs.foldl (fun n g=>.alt n (formNode g)) left
def others (fs:List (List UInt8)):List UInt8:=fs.flatMap fun g=>124::written g
lemma sees_others {fs:List (List UInt8)}(h:Follows src i (others fs++41::rest)):
 ∃t,(t=.bar∨t=.close)∧Sees src i t (i+1):=by
 cases fs with
 | nil=>exact⟨_,.inr rfl,sees_close h⟩
 | cons f _=>exact⟨_,.inl rfl,sees_bar h⟩
lemma alternatives_written {fs:List (List UInt8)}{m:Nat}{lf:Node}
 (h:Follows src i (others fs++41::rest))(hre:Sees src i t0 k)
 (hfs:∀f∈fs,f≠[]∧f.length ≤ m)(hfu:fs.length+m+3≤fuel)
 (hde:depth+4<parserDepth):
 alternatives fuel depth lf (looking src t0 k)=
  .ok (tree lf fs,looking src .close (i+(others fs).length+1)):=by
 induction fs generalizing i k t0 fuel lf with
 | nil=>
  obtain⟨fuel,rfl⟩:∃n,fuel=n+1:=⟨fuel-1,by omega⟩
  cases hre.symm.trans (sees_close h)
  rw[alternatives]
  rfl
 | cons f fs ih=>
  obtain⟨fuel,rfl⟩:∃n,fuel=n+1:=⟨fuel-1,by omega⟩
  obtain⟨⟨hf,hle⟩,hfs⟩:=forall_mem_cons.1 hfs
  have hr:Follows src i (124::(written f++(others fs++41::rest))):=by simpa[others]using h
  cases hre.symm.trans (sees_bar hr)
  obtain⟨t,ht,he⟩:=sees_others hr.tail.append
  obtain⟨t',k',hfst,-,hs⟩:=sees_written hr.tail he ht
  rw[length_cons]at hfu
  have hl:i+(others (f::fs)).length=i+1+(written f).length+(others fs).length:=by
   simp[others]
   omega
  rw[alternatives,hl]
  rw[advance_looking hfst]
  change (if starts t' then (concatenation fuel (depth+2) (looking src t' k') [] >>= fun p=>
    alternatives fuel depth (.alt lf p.1) p.2) else _)=_
  rw[if_pos (hs hf),concatenation_written hr.tail hfst he ht (.inr hf) (by omega) hde]
  exact ih hr.tail.append he hfs (by omega)
lemma untilNul_eq (h:∀c∈src.list,c≠0):src.untilNul=src:=by
 have hid (i:Nat)(hi:i ≤ src.size):src.indexOf 0 i=src.size:=by
  fun_induction indexOf src 0 i with
  | case1 i hlt hz=>exact absurd hz (h _ (Array.getElem_mem_toList hlt))
  | case2 i hlt _ ih=>exact ih hlt
  | case3 i _=>rfl
 rw[untilNul,hid 0 zero_le]
 exact ByteArray.extract_zero_size
end
lemma written_ne_zero (l:List UInt8):∀c∈written l,c≠0:=by
 have he (d:UInt8):∀c∈escaped d,c≠0:=by
  unfold escaped
  grind
 intro c hc
 obtain⟨d,-,hc⟩:=mem_flatMap.1 hc
 exact he d c hc
lemma length_le_written (l:List UInt8):l.length≤(written l).length:=by
 induction l with
 | nil=>exact Nat.le_refl 0
 | cons c l ih=>
  have he:0<(escaped c).length:=by
   unfold escaped
   split_ifs<;>exact succ_pos _
  rw[written,flatMap_cons,length_append,length_cons]
  exact Nat.add_comm 1 _▸Nat.add_le_add he ih
lemma length_le_others {fs:List (List UInt8)}:
 fs.length≤(others fs).length∧∀f∈fs,f.length≤(others fs).length:=by
 induction fs with
 | nil=>simp
 | cons g fs _=>
  have hg:=length_le_written g
  have hl:(others (g::fs)).length=1+(written g).length+(others fs).length:=by
   simp[others]
   omega
  grind
section
variable {f:List UInt8}{fs:List (List UInt8)}{t:Token}
lemma alternative_written (h:Follows src i (written f++(others fs++41::rest)))(hr:Sees src i t k)
 (hf:∀g∈f::fs,g≠[])(hfu:2*((written f).length+(others fs).length)+4≤fuel)
 (hde:depth+4<parserDepth):
 alternative fuel depth (looking src t k)=.ok (tree (formNode f) fs,
  looking src .close (i+(written f).length+(others fs).length+1)):=by
 obtain⟨fuel,rfl⟩:∃n,fuel=n+1:=⟨fuel-1,by omega⟩
 obtain⟨hf,hfs⟩:=forall_mem_cons.1 hf
 obtain⟨t',ht,he⟩:=sees_others h.append
 have hl:=length_le_written f
 have ho:=@length_le_others fs
 rw[alternative]
 rw[concatenation_written h hr he ht (.inr hf) (by omega) (by omega)]
 exact alternatives_written h.append he (fun g hg=>⟨hfs g hg,ho.2 g hg⟩) (by omega) hde
lemma read_alternatives (hf:∀g∈f::fs,g≠[])(hs:alternatives? (f::fs)=some src):
 Regex.read src false=.ok ⟨⟨.cat [tree (formNode f) fs],Traits.none⟩,false⟩:=by
 have hl:src.list=40::(written f++(others fs++[41])):=by
  cases hs
  simp[list,ofList,others]
 have hsi:src.size=(written f).length+(others fs).length+2:=by
  rw[←length_list,hl]
  simp
  omega
 have hn:src.untilNul=src:=untilNul_eq fun c hc=>by
  rw[hl]at hc
  have ho:c∈others fs→c≠0:=fun hc=>by
   obtain⟨g,-,hc⟩:=mem_flatMap.1 hc
   obtain rfl|hc:=mem_cons.1 hc
   ·decide
   ·exact written_ne_zero g c hc
  simp only[mem_cons,mem_append,not_mem_nil,or_false]at hc
  obtain rfl|hc|hc|rfl:=hc
  exacts [by decide,written_ne_zero f c hc,ho hc,by decide]
 have h:Follows src 0 (40::(written f++(others fs++[41]))):=hl
 have hop:Sees src 0 .open 1:=by simp[Sees,Token.read,h.byte]
 obtain⟨t,ht,he⟩:=sees_others h.tail.append
 obtain⟨t1,k1,hfs,-,-⟩:=sees_written h.tail he ht
 have hdo:Sees src (0+1+(written f).length+(others fs).length+1) .done
  (0+1+(written f).length+(others fs).length+1):=by
  simp[Sees,Token.read,h.tail.append.append.tail.finish]
 have hg (fuel:Nat) (hfu:2*((written f).length+(others fs).length)+5≤fuel):
  item fuel 1 (looking src .open 1)=.ok (tree (formNode f) fs,
   looking src .done (0+1+(written f).length+(others fs).length+1)):=by
  obtain⟨fuel,rfl⟩:∃n,fuel=n+1:=⟨fuel-1,by omega⟩
  rw[item]
  rw[advance_looking hfs]
  change (alternative fuel 2 _ >>= _)=_
  rw[alternative_written h.tail hfs hf (by omega) (by decide)]
  change ((looking src .close _).advance >>= fun r=>r.repetition _)=_
  rw[advance_looking hdo]
  rfl
 have hr:alternative (4*src.size+8) 1 (looking src .open 1)=
  .ok (.cat [tree (formNode f) fs],looking src .done (0+1+(written f).length+(others fs).length+1)):=by
  rw[alternative]
  rw[concatenation]
  rw[show (if ([]:List Node).isEmpty then 1 else 1+1)=1 from rfl,hg _ (by omega)]
  change (concatenation (4*src.size+6) 1 _ [_] >>= _)=_
  rw[concatenation]
  change alternatives (4*src.size+7) 1 _ _=_
  rw[alternatives]
  rfl
 rw[Regex.read,hn]
 change ((looking src .done 0).advance >>= fun r=>alternative (4*src.size+8) 1 r >>= fun p=>_)=_
 rw[advance_looking hop]
 change (alternative (4*src.size+8) 1 _ >>= _)=_
 rw[hr]
 rfl
end
/-! ## The alternatives -/
lemma literalBytes?_byteNode (l:List UInt8):literalBytes? (l.map byteNode)=some l:=by
 induction l with
 | nil=>rfl
 | cons c l ih=>
  change (literalBytes? (l.map byteNode)).map _=_
  rw[ih]
  rfl
lemma occurs_tree {d:Bytes}{dt:Bool}(f:List UInt8)(fs:List (List UInt8))(s e:Nat):
 (cat [tree (formNode f) fs]).Occurs ⟨d,false,⟨false,dt⟩⟩ s e↔
  ∃g∈f::fs,e=s+g.length∧g <+: d.list.drop s:=by
 have hf (g:List UInt8):(formNode g).Occurs ⟨d,false,⟨false,dt⟩⟩ s e↔
  e=s+g.length∧g <+: d.list.drop s:=by
  rw[←spelled_false]
  exact occursList_bytes rfl _ g (literalBytes?_byteNode g) s e
 have ht (left:Node):(tree left fs).Occurs ⟨d,false,⟨false,dt⟩⟩ s e↔
  left.Occurs ⟨d,false,⟨false,dt⟩⟩ s e∨∃g∈fs,e=s+g.length∧g <+: d.list.drop s:=by
  induction fs generalizing left with
  | nil=>simp[tree]
  | cons g _ ih=>
   refine (ih (.alt left (formNode g))).trans ?_
   change (left.Occurs _ s e∨(formNode g).Occurs _ s e)∨_↔_
   rw[hf,exists_mem_cons_iff,or_assoc]
 rw[exists_mem_cons_iff,←hf,←ht]
 exact⟨fun⟨m,hm,he⟩=>he▸hm,fun h=>⟨e,h,rfl⟩⟩

/-- The texts whose symbols a string is searched as, and whether a zero stands behind each symbol. -/
def Asked (flags:StringFlags)(text:Bytes)(t:List UInt8)(wide:Bool):Prop:=
 (flags.wide∧t=Bytes.wide text.list∨(flags.ascii∨¬flags.wide)∧t=text.list)∧
  if wide then flags.base64Wide else flags.base64
def coded (wide:Bool)(l:List UInt8):List UInt8:=if wide then widenForm l else l
lemma list_widen (tx:Bytes):tx.widen.list=Bytes.wide tx.list:=by
 have hp (l:List UInt8)(r:Bytes):(l.foldl (fun (w:Bytes) c=>(w.push c).push 0) r).list=r.list++Bytes.wide l:=by
  induction l generalizing r with
  | nil=>exact (append_nil _).symm
  | cons c l ih=>
   rw[foldl_cons,ih]
   simp[Bytes.list,Bytes.wide]
 rw[Bytes.widen,Bytes.foldl_eq,hp]
 rfl
lemma mem_forms:g∈forms alphabet t wide↔
 ∃shift<3,¬(shift=1∧t.length=1)∧g=coded wide (form alphabet t shift):=by
 simp only[forms,mem_map,mem_filter]
 constructor
 ·rintro⟨shift,⟨hs,hsk⟩,rfl⟩
  refine⟨shift,?_,by simpa[imp_iff_not_or]using hsk,rfl⟩
  simp at hs
  omega
 ·rintro⟨shift,hs,hsk,rfl⟩
  refine⟨shift,⟨?_,by simpa[imp_iff_not_or]using hsk⟩,rfl⟩
  simp
  omega
lemma mem_allForms:g∈allForms fl alphabet tx↔∃t wide,Asked fl tx t wide∧g∈forms alphabet t wide:=by
 have hw:tx.widen.data.toList=wide tx.list:=list_widen tx
 have hl:tx.data.toList=tx.list:=rfl
 simp only[allForms,Asked,mem_append]
 all_goals grind
lemma widenForm_ne_nil (h:l≠[]):widenForm l≠[]:=by
 cases l with
 | nil=>exact h
 | cons=>exact nofun
lemma widenForm_drop (l:List UInt8)(k:Nat):(widenForm l).drop (2*k)=widenForm (l.drop k):=by
 induction k generalizing l with
 | zero=>rfl
 | succ k ih=>
  cases l with
  | nil=>rfl
  | cons c l=>exact ih l
lemma forms_ne_nil (ht:t≠[])(hg:g∈forms alphabet t wide):g≠[]:=by
 obtain⟨shift,hs,hsk,rfl⟩:=mem_forms.1 hg
 have hp:=length_pos_iff.2 ht
 have hl:=length_form alphabet t shift
 rw[mod_eq_of_lt hs]at hl
 have hf:form alphabet t shift≠[]:=by
  rw[←length_pos_iff,hl]
  unfold first
  omega
 cases wide with
 | false=>exact hf
 | true=>exact widenForm_ne_nil hf
lemma Asked.ne_nil (h:Asked fl tx t wide)(ht:0<tx.size):t≠[]:=by
 have hl:tx.list≠[]:=by rwa[←length_pos_iff]
 obtain⟨⟨-,rfl⟩|⟨-,rfl⟩,-⟩:=h
 ·exact widenForm_ne_nil hl
 ·exact hl
def symbolWidth (wide:Bool):Nat:=if wide then 2 else 1
lemma coded_isPrefix {f:List UInt8}(h:f <+: l.drop k):
 coded wide f <+: (coded wide l).drop (symbolWidth wide*k):=by
 cases wide with
 | false=>simpa[coded,symbolWidth]using h
 | true=>
  obtain⟨rest,hr⟩:=h
  change widenForm f <+: (widenForm l).drop (2*k)
  rw[widenForm_drop,←hr,widenForm,widenForm,flatMap_append]
  exact prefix_append ..

/-- The pattern of a text has an alternative for each number of bytes that can stand before it: the symbols that all
texts with it have there in common, and no more. -/
theorem pattern_longest_runs {flags:StringFlags} {text:Bytes} (alphabet:Bytes) (htext:0 < text.size)
 (hflags:flags.base64 ∨ flags.base64Wide) : ∃ f fs,
  pattern? flags alphabet text = some ⟨.cat [tree (formNode f) fs],Traits.none⟩ ∧
  (∀ data dotAll s e,(Node.cat [tree (formNode f) fs]).Occurs ⟨data,false,⟨false,dotAll⟩⟩ s e ↔
   ∃ g∈f::fs,e=s+g.length ∧ g <+: data.list.drop s) ∧
  (∀ g∈f::fs,∃ t wide n run,Asked flags text t wide ∧ LongestRun alphabet t n run ∧
   g ≠ [] ∧ g = coded wide run) ∧
  ∀ t wide,Asked flags text t wide → ∀ p q:List UInt8,¬(t.length=1 ∧ p.length%3=1) →
   ∃ run,LongestRun alphabet t p.length run ∧ coded wide run ∈ f::fs ∧
    coded wide run <+: (coded wide (encode alphabet (p++t++q))).drop
     (symbolWidth wide*first p.length) := by
 have hmem (t:List UInt8) (wide:Bool) (h:Asked flags text t wide) (n:Nat)
  (hskip:¬(t.length=1∧n%3=1)) :
  coded wide (form alphabet t (n%3))∈allForms flags alphabet text :=
  mem_allForms.2 ⟨t,wide,h,mem_forms.2 ⟨n%3,mod_lt n (by decide),by tauto,rfl⟩⟩
 obtain⟨t,wide,hasked⟩:∃t wide,Asked flags text t wide:=by
  have hwide:∃wide:Bool,if wide then flags.base64Wide else flags.base64:=by
   simpa[Bool.exists_bool]using hflags
  obtain⟨wide,hwide⟩:=hwide
  by_cases h:flags.wide
  ·exact⟨_,wide,.inl ⟨h,rfl⟩,hwide⟩
  ·exact⟨_,wide,.inr ⟨.inr h,rfl⟩,hwide⟩
 obtain⟨f,fs,hforms⟩:∃f fs,allForms flags alphabet text=f::fs :=
  exists_cons_of_ne_nil (ne_nil_of_mem (hmem t wide hasked 0 (by simp)))
 rw[hforms]at hmem
 refine⟨f,fs,?_,fun data dotAll s e=>occurs_tree f fs s e,fun g hg=>?_,fun t wide hasked p q hskip=>?_⟩
 ·have hne:∀ g∈f::fs,g≠[]:=fun g hg=>by
   rw[←hforms]at hg
   obtain⟨t,wide,hasked,hg⟩:=mem_allForms.1 hg
   exact forms_ne_nil (hasked.ne_nil htext) hg
  obtain⟨src,hsrc⟩:∃src,alternatives? (f::fs)=some src:=⟨_,rfl⟩
  rw[pattern?,hforms,hsrc,Option.bind_eq_bind,Option.bind_some,read_alternatives hne hsrc]
  rfl
 ·rw[←hforms]at hg
  obtain⟨t,wide,hasked,hg⟩:=mem_allForms.1 hg
  obtain⟨shift,hshift,-,rfl⟩:=mem_forms.1 hg
  have hrun:=form_longest alphabet t shift
  rw[mod_eq_of_lt hshift]at hrun
  exact⟨t,wide,shift,_,hasked,hrun,forms_ne_nil (hasked.ne_nil htext) hg,rfl⟩
 ·have hrun:=form_longest alphabet t p.length
  exact⟨_,hrun,hmem t wide hasked _ hskip,coded_isPrefix (hrun.stands p q rfl)⟩
theorem pattern_longest_runs_letter : ∃ f fs,
 pattern? { StringFlags.none with base64 := true,base64Wide := true } standard (.ofList [104]) =
  some ⟨.cat [tree (formNode f) fs],Traits.none⟩∧
 ∃ run,LongestRun standard [104] 2 run∧widenForm run∈f::fs∧
  widenForm run <+: (widenForm (encode standard [1,2,104,9])).drop 6:=by
 obtain⟨f,fs,hpattern,-,-,hruns⟩:=@pattern_longest_runs
  {StringFlags.none with base64:=true,base64Wide:=true} (.ofList [104]) standard (by decide) (.inl rfl)
 exact⟨f,fs,hpattern,hruns [104] true ⟨.inr ⟨.inr nofun,rfl⟩,rfl⟩ [1,2] [9] (by decide)⟩
end PatternScan.Base64