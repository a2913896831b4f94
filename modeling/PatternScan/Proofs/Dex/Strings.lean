import PatternScan.Module.Dex
import PatternScan.Proofs.Module.Reports
import PatternScan.Proofs.Pe.Matching
/-! The texts that a dex file reports, against the texts that its string table leads to. -/
namespace PatternScan
open List Nat Object
variable {d:Bytes}{i:Nat}
namespace Bytes
/-- Bytes with seven bits of a number each, the lowest ones first. All but the last byte have the high bit set. -/
def Encodes:List UInt8→Nat→Prop
 | [],_=>False
 | [c],n=>c.toNat=n∧n<128
 | c::rest,n=>128≤ c.toNat∧c.toNat%128=n%128∧Encodes rest (n/128)
section
variable {n:Nat}{code:List UInt8}
lemma uleb128From_eq {k v m:Nat}(hco:code <+: d.list.drop i)(hn:Encodes code n)(hm:code.length ≤ m)
 (hk:k+m=5)(hv:v+n*2^(7*k)<2^32):d.uleb128From i k v m=some (v+n*2^(7*k),k+code.length):=by
 induction code generalizing i k v n m with
 | nil=>exact hn.elim
 | cons c r ih=>
  obtain⟨hi,hc,hr⟩:=lt_size_of_cons hco
  obtain⟨m,rfl⟩:∃m',m=m'+1:=⟨m-1,by simp at hm;omega⟩
  rw[uleb128From,if_neg (by omega),hc]
  cases r with
  | nil=>
   obtain⟨rfl,hlo⟩:=hn
   by_cases hl:k=4
   ·subst hl
    simp only[beq_self_eq_true,if_true,length_singleton]
    rw[mod_eq_of_lt (by simpa using hv)]
    rfl
   ·simp[hl,hlo,shiftLeft_eq]
  | cons c' r=>
   obtain⟨hh,hlo,hn⟩:=hn
   have hl:k≠4:=by simp at hm;omega
   have hs:v+(c.toNat-128)*2^(7*k)+n/128*2^(7*(k+1))=v+n*2^(7*k):=by
    have hdi:c.toNat-128=n%128:=by have:=c.toNat_lt;omega
    have hp:2^(7*(k+1))=128*2^(7*k):=by ring
    rw[hdi,hp]
    conv_rhs=>rw[←mod_add_div n 128]
    ring
   have hne:=ih (v:=v+(c.toNat-128)*2^(7*k)) (k:=k+1) hr hn (by simpa using hm) (by omega) (by rwa[hs])
   simp only[beq_iff_eq,hl,if_false,not_lt.2 hh,shiftLeft_eq]
   rw[hne,hs]
   simp
   omega

/-- Up to five bytes that stand for a number of 32 bits are read as this number. -/
lemma uleb128?_eq (hc:code <+: d.list.drop i)(hn:Encodes code n)(hl:code.length≤5)(hlt:n<2^32):
 d.uleb128? i=some (n,code.length):=by
 have hr:=uleb128From_eq (k:=0) (v:=0) hc hn hl rfl (by simpa using hlt)
 simpa[uleb128?]using hr
end
end Bytes
namespace Dex.File
lemma strings_withTables (f:File):f.withTables.2.strings=
 (f.table? 56 4).elim f.strings (·.map fun i=>textAt? f.data (f.data.le i 4)):=by
 unfold withTables
 cases f.table? 56 4 with
 | none=>rfl
 | some places=>
  dsimp only[Option.elim]
  repeat' split
  all_goals rfl
lemma strings_withMap (f:File):f.withMap.2.strings=f.strings:=by
 unfold withMap
 dsimp only
 repeat' split
 all_goals rfl
lemma withClasses_frame (p:List Nat)(f:File):
 ∃cs counts fs ms c,f.withClasses p={f with classes:=cs,classData:=counts,fields:=fs,methods:=ms,complete:=c}:=by
 induction p generalizing f with
 | nil=>exact⟨_,_,_,_,_,rfl⟩
 | cons i p ih=>
  unfold withClasses
  dsimp only
  repeat' split
  ·exact ih _
  ·exact⟨_,_,_,_,_,rfl⟩
  ·rw[withClassData]
   exact ih _
section
variable {f:File}(h:read? d=some f)
include h
/-- Only the string table decides about the texts, whatever the file lacks behind it. -/
lemma read?_strings : f.strings=
 (({data:=d}:File).table? 56 4).elim #[] (·.map fun i=>textAt? d (d.le i 4)):=by
 rw[←strings_withTables ({data:=d}:File)]
 unfold read? at h
 split at h
 ·cases h
 split at h
 ·next ht=>
  cases h
  rw[ht]
 next g ht=>
 rw[ht]
 have hm:=strings_withMap g
 split at h
 ·next hg=>
  cases h
  rwa[hg]at hm
 next g' hg=>
 rw[hg]at hm
 split at h
 ·cases h
  exact hm
 ·cases h
  obtain⟨_,_,_,_,_,hf⟩:=withClasses_frame _ _
  rw[hf]
  exact hm
lemma join_strings (hi:i<d.le 56 4):f.strings[i]?.join=
 if fits d (d.le 60 4) (d.le 56 4*4) then textAt? d (d.le (d.le 60 4+i*4) 4) else none:=by
 rw[read?_strings h]
 by_cases hf:fits d (d.le 60 4) (d.le 56 4*4)
 ·simp[table?,word,hf,hi]
 ·simp[table?,word,hf]
end
end Dex.File
namespace Module.Dex
open PatternScan.Dex
lemma load_members (f:File):(load (some f)).member? "string_ids"=some ((arrayOf (.record
  [("offset",.noInteger),("size",.noInteger),("value",.noText)])).withSome (f.strings.toList.map fun t=>t.map fun t o=>
   o.setMembers [("offset",.ofNat t.offset),("size",.ofNat t.value.size),("value",.ofBytes t.value)]))∧
 (load (some f)).member? "number_of_methods"=some (if f.complete then .ofNat f.methods.known.size else .noInteger)∧
 (load (some f)).member? "number_of_fields"=some (if f.complete then .ofNat f.fields.known.size else .noInteger)∧
 ∃p:Object,(load (some f)).member? "method"=some ((arrayOf p).withMade (f.methods.toArray.toList.map fillMethod))∧
  (p.copy.member? "name").isSome∧(p.copy.member? "class_name").isSome:=by
 simp only[load,Option.elim,fill]
 generalize hde:declarations.setMembers _=o
 split <;>
 simp only[member?_setMembers,member?_modifyMember] <;>
 rw[←hde] <;>
 simp only[member?_setMembers] <;>
 exact⟨rfl,rfl,rfl,_,rfl,rfl,rfl⟩

/-- The text of an item of the string table, as a rule reads it. -/
def textOf? (report:Object)(i:Nat):Option Bytes:=(Pe.entryOf report "string_ids" i "value").bind text?
lemma textOf?_load (f:File)(i:Nat):textOf? (load (some f)) i=f.strings[i]?.join.map (·.value):=by
 rw[textOf?,Pe.entryOf,(load_members f).1,Option.bind_some,item?_withSome,getElem?_map,Array.getElem?_toList]
 cases f.strings[i]? with
 | none=>rfl
 | some t=>cases t<;>rfl

/-- What is reported of an item of the string table: the bytes from the second byte of its length on, as many as the
text has. These are the text itself if its length takes one byte. -/
theorem string_reported {d:Bytes}{f:File}(h:File.read? d=some f){i:Nat}(hi:i<d.le 56 4)
 {code text:List UInt8}(hcode:Bytes.Encodes code text.length)(hlength:code.length ≤ 5)(hlt:text.length<2^32)
 (hplace:code++text <+: d.list.drop (d.le (d.le 60 4+i*4) 4)):
 let inside:=d.le 60 4+d.le 56 4*4 ≤ d.size ∧ d.le (d.le 60 4+i*4) 4+4 ≤ d.size
 (textOf? (load (some f)) i =
  if inside then some (Bytes.ofList ((code.tail++text).take text.length)) else none) ∧
 (inside → code.length=1 → textOf? (load (some f)) i=some (Bytes.ofList text)):=by
 intro inside
 obtain⟨c,rest,rfl⟩:∃c rest,code=c::rest:=exists_cons_of_ne_nil fun h=>by rw[h]at hcode;exact hcode
 have hread:=Bytes.uleb128?_eq ((prefix_append _ _).trans hplace) hcode hlength hlt
 have hbeh:rest++text <+: d.list.drop (d.le (d.le 60 4+i*4) 4+1):=(Bytes.lt_size_of_cons hplace).2.2
 have hroom:=hbeh.length_le
 rw[length_append,length_drop,Bytes.length_list]at hroom
 have hcut:d.slice (d.le (d.le 60 4+i*4) 4+1) text.length=Bytes.ofList ((rest++text).take text.length):=by
  refine ByteArray.ext (Array.ext' ?_)
  change Bytes.list _=_
  rw[Bytes.slice,Bytes.list_extract,drop_take,Nat.add_sub_cancel_left]
  obtain⟨u,hu⟩:=hbeh
  rw[←hu,take_append_of_le_length (by simp)]
  rfl
 have hval:textOf? (load (some f)) i=
  if inside then some (Bytes.ofList ((rest++text).take text.length)) else none:=by
  rw[textOf?_load,File.join_strings h hi]
  simp only[fits,decide_eq_true_eq,textAt?,hread,Bool.not_eq_true',decide_eq_false_iff_not,hcut]
  by_cases htbl:d.le 60 4+d.le 56 4*4≤d.size
  ·by_cases hfour:d.le (d.le 60 4+i*4) 4+4≤d.size
   ·rw[if_pos htbl,if_neg (not_not.2 hfour),if_pos (by omega),if_pos ⟨htbl,hfour⟩]
    rfl
   ·rw[if_pos htbl,if_pos hfour,if_neg fun hin=>hfour hin.2]
    rfl
  ·rw[if_neg htbl,if_neg fun hin=>htbl hin.1]
   rfl
 refine⟨hval,fun hin hone=>?_⟩
 obtain rfl:rest=[]:=by simpa using hone
 rw[hval,if_pos hin,nil_append,take_length]
def sample (code text:List UInt8):Bytes:=Bytes.ofList ([100,101,120,10,48,51,53,0]++replicate 48 0++
 [1,0,0,0,112,0,0,0]++replicate 48 0++[116,0,0,0]++code++text)
theorem string_reported_three:∃f,File.read? (sample [3] [97,98,99])=some f∧
 textOf? (load (some f)) 0=some (Bytes.ofList [97,98,99]):=by
 obtain⟨f,hf⟩:=Option.isSome_iff_exists.mp (by decide +kernel:(File.read? (sample [3] [97,98,99])).isSome)
 exact⟨f,hf,(string_reported hf (by decide +kernel) (show Bytes.Encodes [3] 3 from ⟨rfl,by decide⟩) (by decide)
  (by decide) (by decide +kernel)).2 (by decide +kernel) rfl⟩

/-- The same text with two bytes of length, and a text of one byte at the end of the file. -/
theorem string_misreported :
 (File.read? (sample [0x83,0] [97,98,99])).map (fun f=>textOf? (load (some f)) 0)=some (some (Bytes.ofList [0,97,98]))∧
 (File.read? (sample [1] [97])).map (fun f=>textOf? (load (some f)) 0)=some none:=by
 simp only[textOf?_load]
 decide +kernel
end Module.Dex
end PatternScan