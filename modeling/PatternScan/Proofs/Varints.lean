import PatternScan.Dotnet.Metadata
import PatternScan.Proofs.Dex.Strings
/-! Numbers that are written in as many bytes as they need are read back, whatever follows them. -/
namespace PatternScan
open List
namespace Dotnet
/-- A number of 7, 14 or 29 bits, most significant byte first, behind the bits that tell its size. -/
def packed:Nat→Nat→List UInt8
 | 7,n=>[n.toUInt8]
 | 14,n=>[(128+n/256).toUInt8,n.toUInt8]
 | _,n=>[(192+n/2^24).toUInt8,(n/2^16).toUInt8,(n/256).toUInt8,n.toUInt8]
def unsignedBytes (v:Nat):List UInt8:=packed (if v<2^7 then 7 else if v<2^14 then 14 else 29) v
def signedBits (w:Int):Nat:=if -2^6≤w∧w<2^6 then 7 else if -2^13≤w∧w<2^13 then 14 else 29

/-- A number in two's complement of some bits, rotated to the left by one. -/
def rotated (bits:Nat)(w:Int):Nat:=
 let u:=(w%2^bits).toNat
 2*(u%2^(bits-1))+u/2^(bits-1)
def signedBytes (w:Int):List UInt8:=packed (signedBits w) (rotated (signedBits w) w)
variable (rest:List UInt8)
lemma readBits?_packed {bits n:Nat}(hb:bits∈[7,14,29])(h:n<2^bits):
 readBits? (packed bits n++rest)=some (n,bits,rest):=by
 simp only[mem_cons,not_mem_nil,or_false]at hb
 have hm (k:Nat):k.toUInt8.toNat=k%256:=UInt8.toNat_ofNat'
 rcases hb with rfl|rfl|rfl
 ·simp only[packed,singleton_append,readBits?,UInt8.lt_iff_toNat_lt,hm]
  rw[if_pos (by simp;omega),Nat.mod_eq_of_lt (by omega)]
 ·simp only[packed,cons_append,nil_append,readBits?,UInt8.lt_iff_toNat_lt,hm]
  rw[if_neg (by simp;omega),if_pos (by simp;omega)]
  congr 2
  omega
 ·simp only[packed,cons_append,nil_append,readBits?,UInt8.lt_iff_toNat_lt,hm]
  rw[if_neg (by simp;omega),if_neg (by simp;omega),if_pos (by simp;omega)]
  congr 2
  omega
lemma readUnsigned_unsignedBytes {v:Nat}(h:v<2^29):readUnsigned (unsignedBytes v++rest)=(v,rest):=by
 rw[readUnsigned,unsignedBytes,readBits?_packed rest (by grind) (by grind)]
lemma rotated_nonneg {k n:Nat}(h:n<2^k):rotated (k+1) n=2*n:=by
 have hu:((n:Int)%2^(k+1)).toNat=n:=by
  rw[show (2:Int)^(k+1)=(2^(k+1):Nat) by norm_cast,←Int.natCast_emod,Int.toNat_natCast]
  exact Nat.mod_eq_of_lt (by rw[pow_succ];omega)
 rw[rotated,hu,Nat.add_sub_cancel,Nat.mod_eq_of_lt h,Nat.div_eq_of_lt h,add_zero]

/-- The sign comes to stand in the lowest bit. -/
lemma rotated_neg {k n:Nat}(h:n<2^k):rotated (k+1) (n-2^k)=2*n+1:=by
 have hu:(((n:Int)-2^k)%2^(k+1)).toNat=n+2^k:=by
  rw[show (n:Int)-2^k=(n+2^k:Nat)-2^(k+1) by push_cast;ring,Int.sub_emod_right,
   show (2:Int)^(k+1)=(2^(k+1):Nat) by norm_cast,←Int.natCast_emod,Int.toNat_natCast]
  exact Nat.mod_eq_of_lt (by rw[pow_succ];omega)
 rw[rotated,hu,Nat.add_sub_cancel,Nat.add_mod_right,Nat.mod_eq_of_lt h,Nat.add_div_right _ (by positivity),
  Nat.div_eq_of_lt h]
lemma readSigned_packed {k:Nat}(hk:k+1∈[7,14,29]){w:Int}(hl:-2^k≤w)(hu:w<2^k):
 readSigned (packed (k+1) (rotated (k+1) w)++rest)=(w,rest):=by
 have hp:2^(k+1)=2*2^k:=pow_succ' ..
 rcases lt_or_ge w 0 with hw|hw
 ·obtain⟨n,hn⟩:=Int.eq_ofNat_of_zero_le (a:=w+2^k) (by omega)
  have hlt:n<2^k:=by zify;omega
  obtain rfl:w=n-2^k:=by omega
  rw[rotated_neg hlt,readSigned,readBits?_packed rest hk (by omega)]
  simp[Nat.shiftLeft_eq]
  omega
 ·obtain⟨n,rfl⟩:=Int.eq_ofNat_of_zero_le hw
  have hlt:n<2^k:=by zify;exact hu
  rw[rotated_nonneg hlt,readSigned,readBits?_packed rest hk (by omega)]
  simp
lemma readSigned_signedBytes {w:Int}(hl:-2^28≤w)(hu:w<2^28):readSigned (signedBytes w++rest)=(w,rest):=by
 unfold signedBytes signedBits
 split_ifs with h7 h14
 ·exact readSigned_packed rest (by decide) h7.1 h7.2
 ·exact readSigned_packed rest (by decide) h14.1 h14.2
 ·exact readSigned_packed rest (by decide) hl hu
end Dotnet
namespace Bytes
/-- The shortest encoding of a number in bytes of seven bits. -/
def uleb128 (n:Nat):List UInt8:=
 if n<128 then [n.toUInt8] else (n%128+128).toUInt8::uleb128 (n/128)
lemma encodes_cons {c:UInt8}{r:List UInt8}{n:Nat}(h:128≤n):
 Encodes (c::r) n↔128≤c.toNat∧c.toNat%128=n%128∧Encodes r (n/128):=by
 cases r with
 | nil=>
  have hf:¬(c.toNat=n∧n<128):=by omega
  simp[Encodes,hf]
 | cons=>rfl
lemma encodes_uleb128 (n:Nat):Encodes (uleb128 n) n:=by
 induction n using uleb128.induct with
 | case1 n h=>
  rw[uleb128,if_pos h]
  exact⟨by simp;omega,h⟩
 | case2 n h ih=>
  rw[uleb128,if_neg h,encodes_cons (by omega)]
  exact⟨by simp;omega,by simp,ih⟩
lemma length_uleb128_le {code:List UInt8}{n:Nat}(h:Encodes code n):(uleb128 n).length≤code.length:=by
 induction code generalizing n with
 | nil=>exact h.elim
 | cons c r ih=>
  rw[uleb128]
  split
  ·simp
  ·rw[encodes_cons (by omega)]at h
   simpa using ih h.2.2

/-- Before the last byte of an encoding every byte says that more follow. -/
lemma Encodes.high {code p:List UInt8}{n:Nat}(h:Encodes code n)(hp:p <+: code)(hne:p≠code):
 ∀c∈p,128≤c.toNat:=by
 induction p generalizing code n with
 | nil=>simp
 | cons c p ih=>
  obtain⟨r,rfl⟩:∃r,code=c::r:=⟨_,(cons_prefix_iff.1 hp).choose_spec.1⟩
  have hpr:=(cons_prefix_cons.1 hp).2
  cases r with
  | nil=>simp_all
  | cons c' r=>exact forall_mem_cons.2 ⟨h.1,ih h.2.2 hpr (by simpa using hne)⟩
lemma uleb128From_short {b:Bytes}{i k v m:Nat}(h:∀c∈b.list.drop i,128≤c.toNat)(hl:b.size < i+m)(hk:k+m=5):
 b.uleb128From i k v m=none:=by
 induction m generalizing i k v with
 | zero=>rfl
 | succ m ih=>
  rw[uleb128From]
  split
  ·rfl
  ·next hi=>
   rw[drop_list b (by omega),forall_mem_cons]at h
   have hk4:k≠4:=by omega
   simp only[beq_iff_eq,hk4,if_false,not_lt.2 h.1]
   exact ih h.2 (by omega) (by omega)
lemma length_uleb128 {n:Nat}(h:n<2^32):(uleb128 n).length≤5:=by
 repeat
  rw[uleb128]
  split
  ·simp
  rw[length_cons,Nat.succ_le_succ_iff]
 omega
end Bytes
open Bytes Dotnet
theorem numbers_round_trip (rest:List UInt8) :
 (∀v<2^29,readUnsigned (unsignedBytes v++rest) = (v,rest)) ∧
 (∀w:Int,-2^28≤w → w<2^28 → readSigned (signedBytes w++rest) = (w,rest)) ∧
 ∀u<2^32,Encodes (uleb128 u) u ∧ (∀code,Encodes code u → (uleb128 u).length≤code.length) ∧ ∀front:List UInt8,
  (Bytes.ofList (front++uleb128 u++rest)).uleb128? front.length = some (u,(uleb128 u).length) ∧
  ∀p,p <+: uleb128 u → p≠uleb128 u → (Bytes.ofList (front++p)).uleb128? front.length = none := by
 refine⟨fun v hv=>readUnsigned_unsignedBytes rest hv,fun w hl hu=>readSigned_signedBytes rest hl hu,fun u hu=>?_⟩
 refine⟨encodes_uleb128 u,fun _=>length_uleb128_le,fun front=>⟨?_,fun p hp hne=>?_⟩⟩
 ·refine uleb128?_eq ?_ (encodes_uleb128 u) (length_uleb128 hu) hu
  simp[Bytes.list,Bytes.ofList]
 ·have hlp:p.length<(uleb128 u).length:=lt_of_le_of_ne hp.length_le fun he=>hne (hp.eq_of_length he)
  have hl5:=length_uleb128 hu
  refine uleb128From_short (fun c hc=>(encodes_uleb128 u).high hp hne c ?_) ?_ rfl
  ·simpa[Bytes.list,Bytes.ofList]using hc
  ·simp[Bytes.ofList,ByteArray.size]
   omega
theorem numbers_round_trip_bounds : readUnsigned (unsignedBytes (2^29-1)++[7])=(2^29-1,[7])∧
 readSigned (signedBytes (-2^28)++[7])=(-2^28,[7])∧(Bytes.ofList [9,0xFF,0xFF,0xFF,0xFF,0x0F,7]).uleb128? 1=some (2^32-1,5)∧
 (Bytes.ofList [9,0xFF,0xFF]).uleb128? 1=none:=by
 obtain⟨hv,hw,hu⟩:=numbers_round_trip [7]
 have hc:uleb128 (2^32-1)=[0xFF,0xFF,0xFF,0xFF,0x0F]:=by simp[uleb128]
 have hu:=(hu (2^32-1) (by decide)).2.2 [9]
 rw[hc]at hu
 exact⟨hv (2^29-1) (by decide),hw (-2^28) (by decide) (by decide),hu.1,hu.2 [0xFF,0xFF] (by decide) (by decide)⟩
end PatternScan