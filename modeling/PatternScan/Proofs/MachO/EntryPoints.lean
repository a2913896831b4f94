import PatternScan.Module.MachO
import PatternScan.Proofs.Elf.ByteOrder
/-! The entry points of the files in a fat file, by the type of their processor. -/
namespace PatternScan
open Option List Int64 MachO.Fat Module.Pe
lemma Bytes.be_lt (b:Bytes)(i n:Nat):b.be i n<256^n:=by
 induction n with
 | zero=>simp[be]
 | succ n ih=>
  simp only[be,Nat.fold_succ]at ih⊢
  have:=(b.byteAt (i+n)).toNat_lt
  rw[pow_succ]
  omega
namespace MachO
/-- What is known of a part of a fat file. -/
structure Part.Sound (size:Nat)(p:Part):Prop where
 types:p.architecture.cpuType<2^32∧p.architecture.cpuSubtype<2^32
 offset:p.architecture.offset<2^64
 inside:p.inside→p.architecture.offset ≤ size
 outside:p.inside=false→p.file=none
lemma Fat.read?_sound {d:Bytes}{memory:Bool}{base:UInt64}{f:Fat}(h:read? d memory base=some f):
 f.parts.length ≤ f.count ∧ ∀p∈f.parts,p.Sound d.size:=by
 have hpa (w i:Nat) (hw:w=4 ∨ w=8):(partOf d memory base (architectureAt d w i)).Sound d.size:=by
  have ht:=d.be_lt i 4
  have hs:=d.be_lt (i+4) 4
  have ho:d.be (i+8) w<2^64:=lt_of_lt_of_le (d.be_lt (i+8) w) (by obtain rfl|rfl:=hw <;> decide)
  unfold partOf
  dsimp only[architectureAt]
  split
  ·exact⟨⟨ht,hs⟩,ho,nofun,fun _=>rfl⟩
  ·next hin=>
   simp only[Bool.or_eq_true,decide_eq_true_eq,not_or,not_lt]at hin
   exact⟨⟨ht,hs⟩,ho,fun _=>by dsimp only;omega,nofun⟩
 unfold read? at h
 split at h
 ·cases h
 cases h
 split
 ·simp
 refine⟨by simp,fun p hp=>?_⟩
 obtain⟨i,-,rfl⟩:=List.mem_map.1 hp
 refine hpa _ _ ?_
 cases d.be 0 4 == 0xCAFEBABE
 ·exact .inr rfl
 ·exact .inl rfl
end MachO
namespace Module.MachO
open PatternScan.MachO
lemma load_fat (f:Fat):
 (load (.fat f)).member? "fat_arch"=some ((Object.arrayOf (.record
  (["cputype","cpusubtype","offset","size","align"].map fun n=>(n,.noInteger)))).withMade
   (f.parts.map fun p=>fillArchitecture p.architecture))∧
 (load (.fat f)).member? "file"=some ((Object.arrayOf (.record fileMembers)).withSome
  (f.parts.map fun p=>if p.inside then some (p.file.elim id fillFile) else none)):=by
 simp only[load,fillFat,Object.member?_modifyMember,Object.member?_setMembers]
 exact⟨rfl,rfl⟩
def defined? (v:Int64):Option Int64:=if v=undefinedInteger then none else some v

/-- The integer that a rule reads, if it is defined. -/
def integerOf (report:Object)(list:String)(i:Nat)(key:String):Option Int64:=
 match entryOf report list i key with
 | some (.integer v)=>defined? v
 | _=>none
lemma integerOf_eq {r:Object}{l key:String}{i:Nat}{v:Option Int64}
 (h:entryOf r l i key=v.map Object.integer):integerOf r l i key=v.bind defined?:=by
 rw[integerOf,h]
 cases v<;>rfl
lemma defined?_ofNat {n:Nat}(hn:n<2^63):defined? (ofNat n)=some (ofNat n):=by
 refine if_neg fun h=>?_
 have hint:=congrArg toInt h
 rw[toInt_ofNat_of_lt hn]at hint
 have:undefinedInteger.toInt<0:=by decide
 omega
section
variable (f:Fat)(i:Nat)
lemma integerOf_architecture {key:String}{v:Architecture→Nat}
 (hk:∀a,(fillArchitecture a (Object.record (["cputype","cpusubtype","offset","size","align"].map
  fun n=>(n,.noInteger))).copy).member? key=some (.ofNat (v a))):
 integerOf (load (.fat f)) "fat_arch" i key=f.parts[i]?.bind fun p=>defined? (ofNat (v p.architecture)):=by
 have he:entryOf (load (.fat f)) "fat_arch" i key=
  (f.parts[i]?.map fun p=>ofNat (v p.architecture)).map Object.integer:=by
  rw[entryOf,(load_fat f).1,bind_some,Object.item?_withMade,getElem?_map]
  cases f.parts[i]? with
  | none=>rfl
  | some p=>exact hk p.architecture
 rw[integerOf_eq he,bind_map]
 rfl
lemma integerOf_beq (key:String){v:Architecture→Nat}
 (hk:∀a,(fillArchitecture a (Object.record (["cputype","cpusubtype","offset","size","align"].map
  fun n=>(n,.noInteger))).copy).member? key=some (.ofNat (v a)))
 (hs:∀p∈f.parts,v p.architecture<2^63)(t:Int64):(integerOf (load (.fat f)) "fat_arch" i key==some t)=
 f.parts[i]?.any fun p=>t==ofNat (v p.architecture):=by
 rw[integerOf_architecture f i hk]
 cases hp:f.parts[i]? with
 | none=>rfl
 | some p=>
  rw[bind_some,defined?_ofNat (hs p (mem_of_getElem? hp))]
  exact Bool.beq_comm
lemma integerOf_entryPoint:integerOf (load (.fat f)) "file" i "entry_point" =
 f.parts[i]?.bind fun p=>if p.inside then defined? (entryWord p).toInt64 else none:=by
 have he:entryOf (load (.fat f)) "file" i "entry_point" =
  (f.parts[i]?.bind fun p=>if p.inside then some (entryWord p).toInt64 else none).map Object.integer:=by
  rw[entryOf,(load_fat f).2,bind_some,Object.item?_withSome,getElem?_map]
  cases f.parts[i]? with
  | none=>rfl
  | some p=>
   simp only[map_some,join_some,bind_some]
   cases p.inside with
   | false=>rfl
   | true=>
    simp only[if_true,map_some,bind_some,entryWord]
    cases p.file with
    | none=>rfl
    | some x=>
     simp only[Option.elim,fillFile,Object.member?_modifyMember,Object.member?_setMembers,bind_some]
     cases x.entryPoint with
     | none=>rfl
     | some e=>
      have hw:ofNat e.toNat=e.toInt64:=congrArg UInt64.toInt64 UInt64.ofNat_toNat
      exact congrArg (some ∘ Object.integer) hw
 rw[integerOf_eq he]
 cases f.parts[i]? with
 | none=>rfl
 | some p=>cases hp:p.inside<;>simp[hp]
end
section
variable (f:Fat)(t:Int64)(u:Option Int64)
/-- The first architecture with a type, and with a subtype if one is given, as a rule reads them. -/
def chosen:Option Nat:=(range f.count).find? fun i=>
 integerOf (load (.fat f)) "fat_arch" i "cputype"==some t &&
 u.all fun u=>integerOf (load (.fat f)) "fat_arch" i "cpusubtype"==some u

/-- The offset of an architecture plus the entry point of the file with the same index, if both are defined. -/
def start (i:Nat):Option Int64:=
 (integerOf (load (.fat f)) "fat_arch" i "offset").bind fun o=>
 (integerOf (load (.fat f)) "file" i "entry_point").map fun e=>o+e
def Fits (p:Part):Bool:=
 t==ofNat p.architecture.cpuType&&u.all fun u=>u==ofNat p.architecture.cpuSubtype
lemma call_fat (u:Int64)(b:List Scan.SourceBlock)(c:Regex.Code):
 call .entryPoint (.fat f) ⟨[.integer t],b,c⟩=
  .integer ((f.parts.find? (Fits t none)).elim undefinedInteger fun p=>
   ofNat p.architecture.offset+(entryWord p).toInt64)∧
 call .entryPointOfSubtype (.fat f) ⟨[.integer t,.integer u],b,c⟩=
  .integer ((f.parts.find? (Fits t (some u))).elim undefinedInteger fun p=>
   if (entryWord p).toInt64=undefinedInteger then undefinedInteger
   else ofNat p.architecture.offset+(entryWord p).toInt64):=by
 have ho:(fun p:Part=>t==ofNat p.architecture.cpuType)=Fits t none:=funext fun p=>(Bool.and_true _).symm
 have ht:(fun p:Part=>t==ofNat p.architecture.cpuType&&u==ofNat p.architecture.cpuSubtype)=
  Fits t (some u):=rfl
 have hf (arguments:List Condition.Cell):(Call.mk (.integer t::arguments) b c).integer 1=t:=rfl
 have hs:(Call.mk [.integer t,.integer u] b c).integer 2=u:=rfl
 simp only[call,hf,hs,ho,ht]
 constructor
 ·cases f.parts.find? (Fits t none)<;>rfl
 cases f.parts.find? (Fits t (some u)) with
 | none=>rfl
 | some p=>
  have hw:(entryWord p==undefinedInteger.toUInt64)=true↔(entryWord p).toInt64=undefinedInteger:=by
   rw[beq_iff_eq]
   exact⟨fun h=>congrArg UInt64.toInt64 h,fun h=>congrArg toUInt64 h⟩
  simp only[hw,Option.elim]
  split<;>rfl
end
section
variable {d:Bytes}{memory:Bool}{base:UInt64}{f:Fat}(h:read? d memory base=some f)
include h
lemma chosen_eq (t:Int64)(u:Option Int64):chosen f t u=f.parts.findIdx? (Fits t u):=by
 obtain⟨hc,hs⟩:=read?_sound h
 rw[←find?_range_any hc]
 refine congrArg (find? · _) (funext fun i=>?_)
 rw[integerOf_beq f i "cputype" (fun _=>rfl) (fun p hp=>lt_trans (hs p hp).types.1 (by decide))]
 have hsu:=integerOf_beq f i "cpusubtype" (fun _=>rfl) (fun p hp=>lt_trans (hs p hp).types.2 (by decide))
 simp only[hsu]
 cases f.parts[i]? with
 | none=>rfl
 | some p=>cases u<;>rfl

/-- The part that is chosen, and what a rule reads of it: its offset if it has an entry point. -/
lemma chosen_part (hsi:d.size<2^63){t:Int64}{u:Option Int64}{i:Nat}(hi:chosen f t u=some i):
 ∃p,f.parts.find? (Fits t u)=some p∧
 integerOf (load (.fat f)) "file" i "entry_point"=defined? (entryWord p).toInt64∧
 integerOf (load (.fat f)) "fat_arch" i "offset"=defined? (ofNat p.architecture.offset)∧
 start f i=if (entryWord p).toInt64=undefinedInteger then none
  else some (ofNat p.architecture.offset+(entryWord p).toInt64):=by
 rw[chosen_eq h]at hi
 obtain⟨hlt,-⟩:=findIdx?_eq_some_iff_getElem.1 hi
 have hp:f.parts[i]?=some f.parts[i]:=getElem?_eq_getElem hlt
 generalize f.parts[i]=p at hp
 have hs:=(read?_sound h).2 p (mem_of_getElem? hp)
 have ho (hou:p.inside=false):(entryWord p).toInt64=undefinedInteger:=by
  rw[entryWord,hs.outside hou]
  rfl
 have he:integerOf (load (.fat f)) "file" i "entry_point"=defined? (entryWord p).toInt64:=by
  rw[integerOf_entryPoint,hp]
  cases hins:p.inside with
  | true=>simp[hins]
  | false=>simp[hins,ho hins,defined?]
 have hof:integerOf (load (.fat f)) "fat_arch" i "offset"=defined? (ofNat p.architecture.offset):=by
  rw[integerOf_architecture f i fun _=>rfl,hp]
  rfl
 refine⟨p,?_,he,hof,?_⟩
 ·rw[find?_eq_bind_findIdx?_getElem?,hi,bind_some,hp]
 rw[start,he,hof]
 by_cases hw:(entryWord p).toInt64=undefinedInteger
 ·simp[hw,defined?]
 ·have hin:=hs.inside ((Bool.eq_false_or_eq_true p.inside).resolve_right fun hou=>hw (ho hou))
  rw[defined?_ofNat (by omega),defined?,if_neg hw,if_neg hw]
  rfl

/-- The entry points of the files in a fat file as a rule asks for them. If only the type of the processor is given,
an entry point that is undefined is added to the offset like any other. -/
theorem entry_point_for_arch (hsize:d.size<2^63)(t u:Int64)(blocks:List Scan.SourceBlock)(code:Regex.Code):
 let answer (r:Option Int64):=Object.integer (r.getD undefinedInteger)
 call .entryPointOfSubtype (.fat f) ⟨[.integer t,.integer u],blocks,code⟩ =
  answer ((chosen f t (some u)).bind (start f)) ∧
 (call .entryPoint (.fat f) ⟨[.integer t],blocks,code⟩=answer ((chosen f t none).bind (start f)) ↔
  ∀i,chosen f t none=some i → (integerOf (load (.fat f)) "file" i "entry_point").isSome ∨
   integerOf (load (.fat f)) "fat_arch" i "offset"=some 0):=by
 intro answer
 obtain⟨hcall,hcallOf⟩:=call_fat f t u blocks code
 have hnone {u:Option Int64} (hi:chosen f t u=none):f.parts.find? (Fits t u)=none:=by
  rw[find?_eq_bind_findIdx?_getElem?,←chosen_eq h,hi,bind_none]
 constructor
 ·rw[hcallOf]
  refine congrArg Object.integer ?_
  cases hi:chosen f t (some u) with
  | none=>
   rw[hnone hi]
   rfl
  | some i=>
   obtain⟨p,hp,-,-,hst⟩:=chosen_part h hsize hi
   rw[hp,bind_some,hst,Option.elim]
   split<;>rfl
 ·cases hi:chosen f t none with
  | none=>
   rw[hcall,hnone hi]
   exact iff_of_true rfl nofun
  | some i=>
   obtain⟨p,hp,hent,hoff,hst⟩:=chosen_part h hsize hi
   have hzero:(0:Int64)≠undefinedInteger:=by decide
   rw[hcall,hp,bind_some,hst,Option.elim]
   simp only[answer,Object.integer.injEq,Option.some.injEq,forall_eq',hent,hoff,defined?]
   by_cases hword:(entryWord p).toInt64=undefinedInteger
   ·rw[if_pos hword,if_pos hword,hword]
    simp only[getD_none,isSome_none,Bool.false_eq_true,false_or,Int64.add_eq_right]
    grind
   ·simp[hword]
end
def fatSample:Bytes:=
 let numbers big n:=Elf.written big (replicate n 4)
 Bytes.ofList (numbers true 12 [0xCAFEBABE,2,7,3,48,52,0,0x1000007,3,4096,52,0] ++
  numbers false 13 [0xFEEDFACE,7,3,2,1,24,0,0x80000028,24,16,0,0,0])
def sampleFat:Fat:=(read? fatSample false 0).get (by decide +kernel)
lemma sampleFat_read:read? fatSample false 0=some sampleFat:=(some_get _).symm
theorem entry_point_for_arch_main :
 call .entryPointOfSubtype (.fat sampleFat) ⟨[.integer 7,.integer 3],[],.empty⟩=.integer 64∧
 ((chosen sampleFat 7 (some 3)).bind (start sampleFat)).getD undefinedInteger=64:=by
 have hcall:call .entryPointOfSubtype (.fat sampleFat) ⟨[.integer 7,.integer 3],[],.empty⟩=.integer 64:=by
  rw[(call_fat sampleFat 7 3 [] .empty).2]
  exact congrArg Object.integer (by decide +kernel)
 have hsame:=(entry_point_for_arch sampleFat_read (by decide +kernel) 7 3 [] .empty).1
 exact⟨hcall,Object.integer.inj (hsame.symm.trans hcall)⟩

/-- An architecture whose file lies outside has an entry point if its subtype is not given. -/
theorem undefined_entry_point_added :
 Fat.read? fatSample false 0=some sampleFat ∧ integerOf (load (.fat sampleFat)) "file" 1 "entry_point"=none ∧
 call .entryPoint (.fat sampleFat) ⟨[.integer 0x1000007],[],.empty⟩=.integer (4096+undefinedInteger) ∧
 call .entryPointOfSubtype (.fat sampleFat) ⟨[.integer 0x1000007,.integer 3],[],.empty⟩=.noInteger:=by
 obtain⟨hcall,hcallOf⟩:=call_fat sampleFat 0x1000007 3 [] .empty
 rw[hcall,hcallOf,integerOf_entryPoint]
 exact⟨sampleFat_read,by decide +kernel,congrArg Object.integer (by decide +kernel),
  congrArg Object.integer (by decide +kernel)⟩
end Module.MachO
end PatternScan