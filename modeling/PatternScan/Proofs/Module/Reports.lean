import Mathlib.Data.List.DropRight
import PatternScan.Proofs.Pe.Checksum
/-! The members that a rule can read of a file, and the answers to its questions about them. -/
open Option
open Int64 PatternScan.Object PatternScan.Bytes
namespace PatternScan.Pe
namespace File
variable {f:File}
lemma getElem?_foldl_modify (g:Nat→Nat)(l:List Nat)(a:Array (Option Nat))(k:Nat):
 (l.foldl (fun a j=>a.modify (g j) (·.or (some j))) a)[k]?=a[k]?.map (·.or (l.find? (g · == k))):=by
 induction l generalizing a with
 | nil=>simp
 | cons j l ih=>
  rw[List.foldl_cons,ih,Array.getElem?_modify]
  by_cases hj:g j=k
  ·rw[if_pos hj,List.find?_cons_of_pos (by simpa using hj),map_map]
   exact congrArg (a[k]?.map ·) (funext fun o=>by simp)
  ·rw[if_neg hj,List.find?_cons_of_neg (by simpa using hj)]
lemma lt_size_of_offset? {a o:Nat}(h:f.offset? a=some o):o<f.size:=by
 simp only[offset?]at h
 split at h
 ·cases h
 ·next ho=>
  cases h
  simp only[Bool.or_eq_true,decide_eq_true_eq,not_or]at ho
  exact Nat.lt_of_not_le ho.2

/-- What the tables say of the exported functions. -/
theorem exports_eq_tables {i functions names numbers:Nat} (hdirectory:f.directoryOffset? 0=some i)
 (hfits:f.fits i 40) (hcount:f.word (i+20) ≤ exportLimit)
 (hfunctions:f.offset? (f.word (i+28))=some functions)
 (hfunctionsFit:f.fits functions (4*f.word (i+20)))
 (hnames:f.offset? (f.word (i+32))=some names) (hnamesFit:f.fits names (4*f.word (i+24)))
 (hnumbers:f.offset? (f.word (i+36))=some numbers) :
 let count:=f.word (i+20)
 let room:=(f.offset? (f.word (i+12))).all (f.fits · (4*count)) && f.fits numbers (2*count)
 f.exports.functions.map (fun e=>(e.ordinal,e.address,e.name)) =
  if room then
   (List.range count).map fun k=>
    ((f.word (i+16)+k)%2^32,f.word (functions+4*k),
     ((List.range (min (f.word (i+24)) count)).find? fun j=>f.half (numbers+2*j) == k).bind fun j =>
      f.exportText? (f.word (names+4*j)) exportNameLimit)
  else [] := by
 intro count room
 have hroomy:¬f.size-names<4*f.word (i+24):=by
  simp only[fits,decide_eq_true_eq]at hnamesFit
  omega
 have hlibrary:(f.offset? (f.word (i+12))).elim (f.size+1) (f.size-·)<4*f.word (i+20)↔
  (f.offset? (f.word (i+12))).all (f.fits · (4*f.word (i+20)))=false:=by
  simp only[fits,decide_eq_true_eq]at hfunctionsFit
  cases hname:f.offset? (f.word (i+12)) with
  | none=>
   simp only[Option.elim,Option.all,Bool.true_eq_false,iff_false]
   omega
  | some o=>
   have:=lt_size_of_offset? hname
   simp only[Option.elim,Option.all,fits,decide_eq_false_iff_not]
   omega
 have hpls:f.exportPlaces? i=if room then
   some ⟨functions,if f.word (i+24) == 0 then none else some names,numbers,count,min (f.word (i+24)) count⟩
  else none:=by
  simp only[exportPlaces?,Nat.min_eq_left hcount,hlibrary,hnames,hnumbers,hfunctions,hfunctionsFit,
   elim_some,hroomy,isNone_some,room,count]
  cases (f.offset? (f.word (i+12))).all (f.fits · (4*f.word (i+20)))<;>simp
 have hexps:f.exports.functions=(f.exportPlaces? i).elim [] fun p=>
   (List.range p.functionCount).map (f.exportAt i p (f.exportNames p)):=by
  simp only[exports,hdirectory,hfits]
  cases f.exportPlaces? i<;>rfl
 rw[hexps,hpls]
 cases room with
 | false=>rfl
 | true=>
  simp only[if_true,elim_some,List.map_map]
  refine List.map_congr_left fun k hk=>?_
  have hk:=List.mem_range.mp hk
  simp only[Function.comp,exportAt,exportNames,getElem?_foldl_modify,Array.getElem?_replicate,if_pos hk,
   map_some,none_or,join_some]
  by_cases hnone:f.word (i+24)=0
  ·simp[hnone]
  ·simp[hnone]
def library (name functions names numbers:Nat):File:=
 sample 0 [words [0,0,0,name,1,functions,names,352,360,numbers],words [7,8,368,370,0x670066,1]]
theorem exports_eq_tables_two : (library 352 2 2 372).exports.functions.map
 (fun e=>(e.ordinal,e.address,e.name))=[(1,7,some ⟨#[103]⟩),(2,8,some ⟨#[102]⟩)]:=by
 rw[@exports_eq_tables _ 312 352 360 372 (by decide +kernel)
  (by decide +kernel) (by decide +kernel) (by decide +kernel) (by decide +kernel) (by decide +kernel)
  (by decide +kernel) (by decide +kernel)]
 decide +kernel

/-- No function is exported if the name of the library or the numbers of the names stand at the end of the file, and
a name behind as many others as there are functions is not found. -/
theorem exports_ne_tables :
 (library 374 2 2 372).exports.functions.length=0∧(library 352 2 1 374).exports.functions.length=0∧
 (library 352 1 2 372).exports.functions.map (·.name)=[none]:=by
 decide +kernel
lemma ordinal_eq {k:Nat}{e:Export}(h:f.exports.functions[k]?=some e):∃i,
 f.directoryOffset? 0=some i∧e.ordinal=(f.word (i+16)+k)%2^32∧k<exportLimit:=by
 unfold exports at h
 cases hi:f.directoryOffset? 0 with
 | none=>simp[hi]at h
 | some i=>
  by_cases hf:f.fits i 40
  ·cases hp:f.exportPlaces? i with
   | none=>simp[hi,hf,hp]at h
   | some p=>
    have hc:p.functionCount≤exportLimit:=by
     simp only[exportPlaces?]at hp
     repeat' split at hp
     all_goals first | cases hp;exact min_le_right _ _ | cases hp
    simp only[hi,hf,hp,if_true,List.getElem?_map,map_eq_some_iff]at h
    grind [exportAt]
  ·simp[hi,hf]at h
end File
end PatternScan.Pe
namespace PatternScan
open List
variable {d:Bytes}{o:Nat}
lemma find?_range_any {α:Type}{l:List α}{n:Nat}(hn:l.length≤n)(q:α→Bool):
 (range n).find? (fun i=>l[i]?.any q)=l.findIdx? q:=by
 ext i
 rw[find?_range_eq_some,findIdx?_eq_some_iff_getElem]
 constructor
 ·rintro⟨hi,-,hb⟩
  obtain⟨a,ha,hq⟩:=(Option.any_eq_true _ _).1 hi
  obtain⟨hlt,rfl⟩:=List.getElem?_eq_some_iff.1 ha
  refine⟨hlt,hq,fun j hj=>?_⟩
  simpa[lt_trans hj hlt]using hb j hj
 ·rintro⟨hlt,hi,hb⟩
  refine⟨by simpa[hlt]using hi,mem_range.2 (by omega),fun j hj=>?_⟩
  simpa[lt_trans hj hlt]using hb j hj

/-- A lookup by ordinal finds what a search through the whole table finds, unless it does not begin. -/
lemma Pe.ExportTable.indexOfOrdinal?_eq (t:ExportTable)(o:Int):t.indexOfOrdinal? o=
 if o=0∨t.functions.length<o then none
 else (range t.functions.length).find? fun i=>t.functions[i]?.any (·.ordinal==o):=by
 rw[indexOfOrdinal?,find?_range_any le_rfl]
 simp only[Bool.or_eq_true,beq_iff_eq,decide_eq_true_eq]
 rfl
namespace Object
lemma lookup_replaceMember (nm key:String)(v:Object)(mm:List (String×Object)):
 (replaceMember nm v mm).lookup key=
  if nm=key then (mm.lookup key).map fun _=>v else mm.lookup key:=by
 induction mm with
 | nil=>simp[replaceMember]
 | cons m _ _=>
  obtain⟨n,o⟩:=m
  rw[replaceMember]
  by_cases hn:n=nm
  ·grind
  ·grind
lemma member?_setMember (o:Object)(n key:String)(v:Object):(o.setMember n v).member? key=
  if n=key then (o.member? key).map fun _=>v else o.member? key:=by
 cases o with
 | struct m=>exact lookup_replaceMember n key v m
 | _=>simp[setMember,member?]
lemma member?_setMembers (o:Object)(values:List (String×Object))(key:String):(o.setMembers values).member? key=
  (o.member? key).map fun m=>(values.reverse.lookup key).getD m:=by
 induction values generalizing o with
 | nil=>simp[setMembers]
 | cons v values ih=>
  obtain⟨n,w⟩:=v
  have hc:o.setMembers ((n,w)::values)=(o.setMember n w).setMembers values:=rfl
  rw[hc,ih,member?_setMember,reverse_cons,lookup_append]
  cases o.member? key with
  | none=>simp
  | some m=>
   by_cases hn:n=key
   ·cases values.reverse.lookup key<;>simp[hn]
   ·cases values.reverse.lookup key<;>simp[hn,lookup_cons,beq_false_of_ne (Ne.symm hn)]
lemma member?_modifyMember (o:Object)(n key:String)(f:Object→Object):(o.modifyMember n f).member? key=
  if n=key then (o.member? key).map f else o.member? key:=by
 unfold modifyMember
 cases hm:o.member? n with
 | none=>grind
 | some m=>grind [member?_setMember]
lemma item?_withMade (p:Object)(m:List (Object→Object))(i:Nat):
 ((arrayOf p).withMade m).item? i=m[i]?.map (· p.copy):=by
 have hn:¬((i:Int)<0):=by omega
 simp[item?,withMade,arrayOf,items]
 cases m[i]?<;>rfl
lemma item?_withSome (p:Object)(m:List (Option (Object→Object)))(i:Nat):
 ((arrayOf p).withSome m).item? i=m[i]?.join.map (· p.copy):=by
 have hdr {α:Type}(l:List (Option α)):((l.rdropWhile isNone)[i]?).join=l[i]?.join:=by
  induction l using reverseRecOn with
  | nil=>rfl
  | append_singleton l x ih=>
   cases x with
   | none=>
    rw[rdropWhile_concat_pos _ _ _ rfl,ih]
    grind
   | some x=>rw[rdropWhile_concat_neg _ _ _ (by simp)]
 have hn:¬((i:Int)<0):=by omega
 simp only[item?,hn,if_false,withSome,arrayOf,items,Int.toNat_natCast,getElem?_toArray]
 refine (hdr _).trans ?_
 rw[getElem?_map]
 cases m[i]?<;>rfl
end Object
namespace Pe.File
/-- The end that is kept is one of the ends, and not below any of them as a word of 32 bits. -/
lemma foldl_end (l:List Section)(n:Nat):
 let last:=l.foldl (fun n s=>if n<(s.rawOffset+s.rawSize)%0x100000000 then s.rawOffset+s.rawSize else n) n
 (last=n∨last∈l.map fun s=>s.rawOffset+s.rawSize)∧n≤last∧
 ∀s∈l,(s.rawOffset+s.rawSize)%2^32≤last:=by
 induction l generalizing n with
 | nil=>simp
 | cons s l ih=>
  obtain⟨hm,hle,ha⟩:=ih (if n<(s.rawOffset+s.rawSize)%0x100000000 then s.rawOffset+s.rawSize else n)
  have hmo:=Nat.mod_le (s.rawOffset+s.rawSize) 0x100000000
  simp only[foldl_cons,map_cons,mem_cons]
  grind
lemma overlay_eq (f:File):f.overlay=
 if 0<f.sectionsEnd∧f.sectionsEnd<f.size then (f.sectionsEnd,f.size-f.sectionsEnd) else (0,0):=by
 simp[overlay,Nat.pos_iff_ne_zero]
end Pe.File
namespace Module.Pe
open PatternScan.Pe
lemma load_members (x:Image):
 (load (some x)).member? "overlay"=some (.record
  [("offset",.ofNat x.file.overlay.1),("size",.ofNat x.file.overlay.2)])∧
 (load (some x)).member? "number_of_exports"=some (.ofNat x.exports.functions.length)∧
 (load (some x)).member? "export_details"=some ((arrayOf (.record (integers ["offset"]++
  texts ["name","forward_name"]++integers ["ordinal","rva"]))).withMade (x.exports.functions.map fillExport))∧
 (load (some x)).member? "resources"=some ((arrayOf (.record
  (integers ["rva","offset","length","type","id","language"]++
   texts ["type_string","name_string","language_string"]))).withMade (x.resources.map fillResource))∧
 (load (some x)).member? "entry_point"=some (.ofInt x.entryPoint):=by
 simp only[load,Option.elim,fill,fillHeader,fillExports,fillLibraries,fillVersionInfo,fillResources]
 generalize hde:declarations.setMembers _=o
 cases x.rich<;>cases x.resourceRoot <;>
 simp only[member?_setMembers,member?_modifyMember,member?_setMember] <;>
 rw[←hde] <;>
 simp only[member?_setMembers] <;>
 exact⟨rfl,rfl,rfl,rfl,rfl⟩
def exportOrdinal? (report:Object)(i:Nat):Option Int64:=
 match (report.member? "export_details").bind fun a=>(a.item? i).bind (·.member? "ordinal") with
 | some (.integer v)=>some v
 | _=>none
lemma load_exports (x:Image)(i:Nat):
 exportOrdinal? (load (some x)) i=x.exports.functions[i]?.map (Int64.ofNat ·.ordinal):=by
 rw[exportOrdinal?,(load_members x).2.2.1,bind_some,item?_withMade]
 cases hi:x.exports.functions[i]? with
 | none=>simp[hi]
 | some e=>
  simp[hi]
  rfl
lemma call_ordinal (x:Image)(o:Int64)(b:List Scan.SourceBlock)(c:Regex.Code):
 call .exportsOrdinal (some x) ⟨[.integer o],b,c⟩=truth (x.exports.indexOfOrdinal? o.toInt).isSome∧
 call .exportIndexOfOrdinal (some x) ⟨[.integer o],b,c⟩=optional (x.exports.indexOfOrdinal? o.toInt):=
 ⟨rfl,rfl⟩

/-- What a rule learns of the exported functions by their ordinals, next to the table that it can read. -/
theorem exports_by_ordinal (f:File) (base:Nat) (memory:Bool) (o:Int64)
 (blocks:List Scan.SourceBlock) (code:Regex.Code) :
 let x:=Image.ofFile f base memory
 let report:=load (some x)
 let n:=f.exports.functions.length
 let first?:=(List.range n).find? fun i=>exportOrdinal? report i == some o
 let answer (g:PeFunction):=call g (some x) ⟨[.integer o],blocks,code⟩
 report.member? "number_of_exports"=some (.ofNat n) ∧
 (answer .exportsOrdinal=truth first?.isSome ∧ answer .exportIndexOfOrdinal=optional first? ↔
  (first?.isSome → o≠0 ∧ o.toInt ≤ n)) ∧
 (¬(o≠0 ∧ o.toInt ≤ n) → answer .exportsOrdinal=truth false ∧ answer .exportIndexOfOrdinal=optional none) ∧
 ∀i,f.directoryOffset? 0=some i → f.word (i+16)=1 → first?.isSome → o≠0 ∧ o.toInt ≤ n := by
 intro x report n first? answer
 have hordinal (i:Nat):exportOrdinal? report i=f.exports.functions[i]?.map (Int64.ofNat ·.ordinal):=
  load_exports x i
 have hzero:o=0↔o.toInt=0:=by rw[←Int64.toInt_inj];rfl
 have hfst:first?=(List.range n).find? fun i=>f.exports.functions[i]?.any (·.ordinal == o.toInt):=by
  refine congrArg (List.find? · (List.range n)) (funext fun i=>?_)
  rw[hordinal]
  cases he:f.exports.functions[i]? with
  | none=>rfl
  | some e=>
   obtain⟨i,-,hlt,-⟩:=File.ordinal_eq he
   have hequal:Int64.ofNat e.ordinal=o↔(e.ordinal:Int)=o.toInt:=by
    rw[←Int64.toInt_inj,Int64.toInt_ofNat_of_lt (by omega)]
   rw[Bool.eq_iff_iff]
   simpa using hequal
 have hidx:f.exports.indexOfOrdinal? o.toInt=if o≠0∧o.toInt≤n then first? else none:=by
  rw[hfst,ExportTable.indexOfOrdinal?_eq]
  grind
 obtain⟨hlst,hnum⟩:=call_ordinal x o blocks code
 have hexps:x.exports=f.exports:=rfl
 rw[hexps,hidx]at hlst hnum
 simp only[answer,hlst,hnum]
 refine⟨(load_members x).2.1,?_,fun hout=>by simp[hout],fun i hi hone hfnd=>?_⟩
 ·by_cases hin:o≠0∧o.toInt≤n
  ·rw[if_pos hin]
   exact iff_of_true ⟨rfl,rfl⟩ fun _=>hin
  ·rw[if_neg hin]
   cases first? with
   | none=>simp
   | some i=>exact iff_of_false (fun h=>by cases h.1) fun h=>hin (h rfl)
 ·obtain⟨k,hk⟩:=isSome_iff_exists.mp hfnd
  rw[hfst,find?_range_eq_some]at hk
  obtain⟨hk,hlt,-⟩:=hk
  have hlt:k<n:=List.mem_range.mp hlt
  obtain⟨e,he⟩:∃e,f.exports.functions[k]?=some e:=⟨_,getElem?_eq_getElem hlt⟩
  obtain⟨i',hi',heq,hlim⟩:=File.ordinal_eq he
  obtain rfl:i'=i:=Option.some.inj (hi'.symm.trans hi)
  have hsame:(e.ordinal:Int)=o.toInt:=by simpa[he]using hk
  rw[Ne,hzero]
  unfold File.exportLimit at hlim
  omega
def directory:{i:Nat//(File.library 352 2 2 372).directoryOffset? 0=some i}:=⟨312,by decide +kernel⟩
theorem exports_by_ordinal_two :
 let f:=File.library 352 2 2 372
 let x:=Image.ofFile f 0 false
 call .exportIndexOfOrdinal (some x) ⟨[.integer 2],[],.empty⟩ =
  optional ((List.range f.exports.functions.length).find? fun i=>exportOrdinal? (load (some x)) i == some 2):=
 let h:=exports_by_ordinal (File.library 352 2 2 372) 0 false 2 [] .empty
 (h.2.1.mpr (h.2.2.2 _ directory.2 (by decide +kernel))).2

/-- The ordinals of a library whose base is 5 are not found. -/
theorem ordinal_beyond_count :
 let f:=File.sample 0 [File.words [0,0,0,352,5,2,0,352,360,360],File.words [7,8,0]]
 let x:=Image.ofFile f 0 false
 exportOrdinal? (load (some x)) 0=some 5∧
 call .exportsOrdinal (some x) ⟨[.integer 5],[],.empty⟩=truth false∧
 call .exportIndexOfOrdinal (some x) ⟨[.integer 5],[],.empty⟩=.noInteger:=by
 intro f x
 have hnone:x.exports.indexOfOrdinal? (5:Int64).toInt=none:=by decide +kernel
 obtain⟨hlst,hnum⟩:=call_ordinal x 5 [] .empty
 rw[hnone]at hlst hnum
 exact⟨(load_exports x 0).trans (by decide +kernel),hlst,hnum⟩

/-- The overlay starts at the end of the section that comes last, as long as no end exceeds 32 bits. -/
theorem overlay_reported (f:File) (base:Nat) (memory:Bool) :
 let report:=load (some (Image.ofFile f base memory))
 let field (key:String):=(report.member? "overlay").bind (·.member? key)
 let stop (s:Section):=s.rawOffset+s.rawSize
 ∃ e,(e=0 ∨ e∈f.sections.map stop) ∧ (∀s∈f.sections,stop s%2^32 ≤ e) ∧
  ((∀s∈f.sections,stop s<2^32) → e=(f.sections.map stop).foldl max 0) ∧
  (field "offset",field "size")=if 0<e ∧ e<f.size then (some (.ofNat e),some (.ofNat (f.size-e)))
   else (some (.ofNat 0),some (.ofNat 0)) := by
 intro report field stop
 obtain⟨hmem,-,hall⟩:=File.foldl_end f.sections 0
 refine⟨f.sectionsEnd,hmem,hall,fun hsmall=>?_,?_⟩
 ·rw[File.sectionsEnd,foldl_map]
  refine foldl_ext _ _ _ fun n s hs=>?_
  have hstop:s.rawOffset+s.rawSize<2^32:=hsmall s hs
  rw[Nat.mod_eq_of_lt (by omega)]
  grind
 ·simp only[field,report,(load_members _).1,bind_some]
  rw[show (Image.ofFile f base memory).file=f from rfl,File.overlay_eq]
  split<;>rfl
def sectioned (l:List (Nat×Nat)):File:=
 (File.read? (Bytes.concat ([⟨#[77,90]⟩,Bytes.replicate 58 0,⟨#[64,0,0,0,80,69,0,0,0,0,l.length.toUInt8,0]⟩,
  Bytes.replicate 12 0,⟨#[224,0]⟩,Bytes.replicate 226 0] ++
  l.flatMap (fun (offset,size)=>[Bytes.replicate 16 0,File.words [size,offset],Bytes.replicate 16 0]) ++
  [Bytes.replicate 100 0]))).getD default
theorem overlay_reported_two :
 ((load (some (Image.ofFile (sectioned [(400,50),(300,60)]) 0 false))).member? "overlay").bind
  (·.member? "offset")=some (.ofNat 450) := by
 have hsmall:∀s∈(sectioned [(400,50),(300,60)]).sections,s.rawOffset+s.rawSize<2^32:=by decide +kernel
 have hlast:((sectioned [(400,50),(300,60)]).sections.map fun s=>s.rawOffset+s.rawSize).foldl max 0=450:=by
  decide +kernel
 have hsize:(sectioned [(400,50),(300,60)]).size=492:=by decide +kernel
 generalize sectioned [(400,50),(300,60)]=f at *
 obtain⟨e,-,-,he,h⟩:=overlay_reported f 0 false
 obtain rfl:=(he hsmall).trans hlast
 exact congrArg Prod.fst (h.trans (if_pos (by omega)))

/-- A section whose end exceeds 32 bits is passed over. -/
theorem overlay_before_end :
 let f:=sectioned [(400,50),(0xffffffff,2)]
 f.overlay=(450,42)∧(f.sections.map fun s=>s.rawOffset+s.rawSize).foldl max 0=2^32+1:=by
 decide +kernel
def entryOf (report:Object)(list:String)(i:Nat)(key:String):Option Object:=
 (report.member? list).bind fun a=>(a.item? i).bind (·.member? key)
lemma load_entries (x:Image)(i:Nat):entryOf (load (some x)) "resources" i "language"=x.resources[i]?.map
  (fun r=>.integer (r.language.number?.elim undefinedInteger Int64.ofInt))∧
 entryOf (load (some x)) "resources" i "offset"=x.resources[i]?.map (optional ·.offset)∧
 entryOf (load (some x)) "export_details" i "offset"=x.exports.functions[i]?.map (optional ·.offset)∧
 (load (some x)).member? "entry_point"=some (.ofInt x.entryPoint):=by
 obtain⟨-,-,he,hr,hen⟩:=load_members x
 rw[entryOf,entryOf,entryOf,he,hr,bind_some,bind_some,bind_some,
  item?_withMade,item?_withMade,getElem?_map,getElem?_map]
 refine⟨?_,?_,?_,hen⟩
 ·cases x.resources[i]? with
  | none=>rfl
  | some r=>
   simp only[map_some,bind_some]
   cases hn:r.language.number?<;>simp only[fillResource,hn]<;>rfl
 ·cases x.resources[i]?<;>rfl
 ·cases x.exports.functions[i]?<;>rfl

/-- When a file has a language or a locale: what a rule reads as undefined counts as a number as well. -/
theorem language_spoken (f:File) (base:Nat) (memory:Bool) (v:Int64) (blocks:List Scan.SourceBlock) (code:Regex.Code) :
 let x:=Image.ofFile f base memory
 let language (i:Nat):=entryOf (load (some x)) "resources" i "language"
 let spoken (bits:Nat):=∃ i n,language i=some (.integer n) ∧ n≠undefinedInteger ∧
  ((n.toUInt64.toNat%2^bits:Nat):Int)=v.toInt
 let unknown:=∃ i,language i=some .noInteger
 let answer (g:PeFunction):=call g (some x) ⟨[.integer v],blocks,code⟩
 (∃ b,answer .language=truth b ∧ (b=true ↔ spoken 8 ∨ v=0xff ∧ unknown)) ∧
 ∃ b,answer .locale=truth b ∧ (b=true ↔ spoken 16 ∨ v=0xdaff ∧ unknown) := by
 intro x language spoken unknown answer
 have hans (bits:Nat) (hbits:bits≤16) (u:Int64) (hu:undefinedInteger.toUInt64.toNat%2^bits=u.toUInt64.toNat):
  x.resources.any (speaks bits v.toUInt64.toNat)=true↔spoken bits∨v=u∧unknown:=by
  have hlow (n:Int64):((n.toUInt64.toNat%2^bits:Nat):Int)=v.toInt↔n.toUInt64.toNat%2^bits=v.toUInt64.toNat:=by
   have hlt:n.toUInt64.toNat%2^bits<2^16:=
    lt_of_lt_of_le (Nat.mod_lt _ (Nat.two_pow_pos bits)) (Nat.pow_le_pow_right (by decide) hbits)
   have hwide:=v.toUInt64.toNat_lt
   have hv:v.toInt=if 2*v.toUInt64.toNat<2^64 then (v.toUInt64.toNat:Int) else v.toUInt64.toNat-(2^64:Nat):=
    BitVec.toInt_eq_toNat_cond _
   rw[hv]
   split<;>omega
  have hspeaks (r:Resource):speaks bits v.toUInt64.toNat r=true↔
   (r.language.number?.elim undefinedInteger Int64.ofInt).toUInt64.toNat%2^bits=v.toUInt64.toNat:=by
   rw[speaks,beq_iff_eq,Nat.one_shiftLeft]
  have hlanguage (i:Nat):=(load_entries x i).1
  rw[List.any_eq_true]
  constructor
  ·rintro⟨r,hr,hs⟩
   obtain⟨i,hi⟩:=mem_iff_getElem?.mp hr
   have hi:language i=some (.integer (r.language.number?.elim undefinedInteger Int64.ofInt)):=
    (hlanguage i).trans (congrArg (Option.map _) hi)
   rw[hspeaks]at hs
   by_cases hn:r.language.number?.elim undefinedInteger Int64.ofInt=undefinedInteger
   ·rw[hn,hu]at hs
    rw[hn]at hi
    exact .inr ⟨congrArg Int64.ofUInt64 (UInt64.toNat_inj.mp hs.symm),i,hi⟩
   ·exact .inl ⟨i,_,hi,hn,(hlow _).mpr hs⟩
  ·have hread {i:Nat} {n:Int64} (hi:language i=some (.integer n)):∃r∈x.resources,
    r.language.number?.elim undefinedInteger Int64.ofInt=n:=by
    obtain⟨r,hr,hn⟩:=map_eq_some_iff.mp ((hlanguage i).symm.trans hi)
    exact⟨r,mem_of_getElem? hr,Object.integer.inj hn⟩
   rintro (⟨i,n,hi,-,hn⟩|⟨rfl,i,hi⟩)
   ·obtain⟨r,hr,rfl⟩:=hread hi
    exact⟨r,hr,(hspeaks r).mpr ((hlow _).mp hn)⟩
   ·obtain⟨r,hr,hn⟩:=hread hi
    exact⟨r,hr,(hspeaks r).mpr (by rw[hn,hu])⟩
 exact⟨⟨_,rfl,hans 8 (by decide) 0xff (by decide)⟩,⟨_,rfl,hans 16 (by decide) 0xdaff (by decide)⟩⟩

/-- A resource whose language is a text answers for the locale and the language that the undefined integer has. -/
theorem language_unknown :
 let f:=File.sample 2 [File.folder [(1,0x80000018)],File.folder [(5,0x80000030)],File.folder [(0x80000058,72)],
  File.words [0,4,0,0,0x410001]]
 let answer (g:PeFunction) (v:Int64):=call g (some (Image.ofFile f 0 false)) ⟨[.integer v],[],.empty⟩
 f.resources.map (·.language.number?)=[none]∧answer .locale 0xdaff=truth true∧answer .language 0xff=truth true:=by
 intro f answer
 have hnone:f.resources.map (·.language.number?)=[none]:=by decide +kernel
 have hlocale:f.resources.any (speaks 16 0xdaff)=true:=by decide +kernel
 have hlanguage:f.resources.any (speaks 8 0xff)=true:=by decide +kernel
 clear_value f
 exact⟨hnone,congrArg truth hlocale,congrArg truth hlanguage⟩
end Module.Pe
namespace Pe.File
variable {f:File}
lemma rawOffset_lt (n:Nat):∀i,∀s∈readSections d n i,s.rawOffset<2^32∧s.rawSize<2^32:=by
 induction n with
 | zero=>exact fun _ _ hs=>absurd hs not_mem_nil
 | succ n ih=>
  intro i s hs
  rw[readSections]at hs
  split at hs
  ·exact absurd hs not_mem_nil
  ·obtain rfl|hs:=mem_cons.1 hs
   ·exact⟨le_lt d _ 4,le_lt d _ 4⟩
   ·exact ih _ s hs
lemma offset?_lt (hr:read? d=some f){ad:Nat}(h:f.offset? ad=some o):
 o<d.size ∧ o<2^33:=by
 have hse:∀s∈f.sections,s.rawOffset<2^32 ∧ s.rawSize<2^32:=by
  simp only[read?,ite_none_left_eq_some]at hr
  cases hr.2
  exact rawOffset_lt _ _
 have hpa:(f.partAt ad).2.1<2^32 ∧ (f.partAt ad).2.2<2^32:=by
  have hfn {s:Section} (hs:f.sectionAt? ad=some s):s∈f.sections:=by
   have hf (l:List Section) (best:Option Section):∀s,l.foldl (fun best s=>
    if s.holds ad && (best.elim 0 (·.virtualAddress)) ≤ s.virtualAddress then some s else best) best=some s→
    best=some s ∨ s∈l:=by
    induction l generalizing best with
    | nil=>exact fun s hs=>.inl hs
    | cons a l ih=>
     intro s hs
     rw[foldl_cons]at hs
     grind
   exact (hf _ _ s hs).resolve_left (by simp)
  unfold partAt
  split
  ·exact⟨Nat.two_pow_pos 32,Nat.mod_lt _ (by decide)⟩
  cases hs:f.sectionAt? ad with
  | none=>exact⟨Nat.two_pow_pos 32,Nat.two_pow_pos 32⟩
  | some s=>
   obtain⟨ho,hsi⟩:=hse s (hfn hs)
   refine⟨Nat.lt_of_le_of_lt ?_ ho,hsi⟩
   simp only[Header.rawStart]
   split <;> split <;> omega
 obtain⟨rfl,-⟩:=read?_eq hr
 refine⟨lt_size_of_offset? h,?_⟩
 obtain⟨⟨start,offset,size⟩,hp⟩:∃p,f.partAt ad=p:=⟨_,rfl⟩
 simp only[offset?,hp]at h hpa
 split at h
 ·cases h
 ·next hou=>
  cases h
  simp only[Bool.or_eq_true,decide_eq_true_eq,not_or]at hou
  omega
lemma resource_offset {r:Resource}(h:r∈f.resources):r.offset=f.offset? r.address:=by
 have hc (root:Nat) (l:List ResourceVisit) (w:ResourceWalk) (hw:∀r∈w.found,r.offset=f.offset? r.address):
  ∀r∈(l.foldl (f.collect root) w).found,r.offset=f.offset? r.address:=by
  induction l generalizing w with
  | nil=>exact hw
  | cons v l ih=>
   refine ih _ fun r hr=>?_
   rw[collect]at hr
   split at hr
   ·obtain rfl|hr:=mem_cons.1 hr
    ·rfl
    ·exact hw r hr
   ·exact hw r hr
 unfold resources at h
 split at h
 ·exact hc _ _ {} (fun _ h=>absurd h not_mem_nil) r (mem_reverse.1 h)
 ·exact absurd h not_mem_nil
lemma export_offset {e:Export}(h:e∈f.exports.functions)(ho:e.offset=some o):
 f.offset? e.address=some o:=by
 unfold exports at h
 repeat' split at h
 all_goals first | exact absurd h not_mem_nil | skip
 obtain⟨k,-,rfl⟩:=mem_map.1 h
 simp only[exportAt]at ho⊢
 split at ho
 ·cases ho
 ·exact ho
end Pe.File
namespace Module.Pe
open PatternScan.Pe
/-- Undefined, or an offset in a file of some size. -/
def Inside (size:Nat)(o:Object):Prop:=
 o=.noInteger∨∃n:Int64,o=.integer n∧0≤n.toInt∧n.toInt<size
lemma inside_ofNat {f:File}(hr:File.read? d=some f){a:Nat}(h:f.offset? a=some o):
 Inside d.size (.ofNat o):=by
 obtain⟨hlt,hs⟩:=File.offset?_lt hr h
 refine .inr ⟨_,rfl,?_⟩
 rw[toInt_ofNat_of_lt (by omega)]
 omega
lemma inside_optional {f:File}(hr:File.read? d=some f){p:Option Nat}
 (h:∀o,p=some o→∃address,f.offset? address=some o):Inside d.size (optional p):=by
 cases p with
 | none=>exact .inl rfl
 | some o=>
  obtain⟨address,h⟩:=h o rfl
  exact inside_ofNat hr h
lemma entryPoint_eq (f:File)(b:Nat):(Image.ofFile f b false).entryPoint=
 match f.offset? f.header.entry with
 | some i=>(i:Int)
 | none=>-1:=
 rfl

/-- Offsets that a rule reads of a file lie in the file, apart from that of an entry point that is not mapped. -/
theorem offsets_inside {d:Bytes} {f:File} (hread:File.read? d=some f) (base:Nat) (v:Int64)
 (blocks:List Scan.SourceBlock) (code:Regex.Code) :
 let x:=Image.ofFile f base false
 let report:=load (some x)
 (∀i o,entryOf report "resources" i "offset"=some o → Inside d.size o) ∧
 (∀i o,entryOf report "export_details" i "offset"=some o → Inside d.size o) ∧
 Inside d.size (call .fileOffset (some x) ⟨[.integer v],blocks,code⟩) ∧
 ∃ o,report.member? "entry_point"=some o ∧
  if (f.offset? f.header.entry).isSome then Inside d.size o else o=.integer (-1) := by
 intro x report
 have hents:=load_entries x
 refine⟨fun i o ho=>?_,fun i o ho=>?_,inside_optional hread fun o ho=>⟨_,ho⟩,_,(hents 0).2.2.2,?_⟩
 ·obtain⟨r,hr,rfl⟩:=map_eq_some_iff.mp ((hents i).2.1.symm.trans ho)
  exact inside_optional hread fun o ho=>⟨_,(File.resource_offset (mem_of_getElem? hr)).symm.trans ho⟩
 ·obtain⟨e,he,rfl⟩:=map_eq_some_iff.mp ((hents i).2.2.1.symm.trans ho)
  exact inside_optional hread fun o ho=>⟨_,File.export_offset (mem_of_getElem? he) ho⟩
 ·rw[entryPoint_eq]
  cases h:f.offset? f.header.entry with
  | none=>exact rfl
  | some o=>exact inside_ofNat hread h
def headedFile:{f:File//File.read? (headed 64)=some f}:=⟨_,read?_getD (by decide +kernel)⟩
theorem offsets_inside_header :
 ∃ f,File.read? (headed 64)=some f∧
  Inside 312 (call .fileOffset (some (Image.ofFile f 0 false)) ⟨[.integer 7],[],.empty⟩):=by
 have hsize:(headed 64).size=312:=by decide +kernel
 exact⟨_,headedFile.2,hsize▸(offsets_inside headedFile.2 0 7 [] .empty).2.2.1⟩

/-- An entry point behind the end of the file is reported as -1. -/
theorem entry_point_outside :
 let f:=(File.read? ((headed 64).setByte 106 1)).getD default
 f.size=312 ∧ f.header.entry=0x10000 ∧
 (load (some (Image.ofFile f 0 false))).member? "entry_point"=some (.integer (-1)) := by
 have hent (f:File) (h:f.offset? f.header.entry=none):
  (load (some (Image.ofFile f 0 false))).member? "entry_point"=some (.integer (-1)):=by
  rw[(load_entries _ 0).2.2.2,entryPoint_eq,h]
  rfl
 exact⟨by decide +kernel,by decide +kernel,hent _ (by decide +kernel)⟩
end Module.Pe
end PatternScan
