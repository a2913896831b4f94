import PatternScan.Module.Pe
import PatternScan.Proofs.Base64
import PatternScan.Proofs.Condition.Matches
import PatternScan.Proofs.Pe.Resources
/-! The names that a file imports: the text of their digest, and how many of them two regular expressions
match. -/
open Function PatternScan.Pe.File PatternScan.Bytes
namespace PatternScan
open List
variable {i:Nat}{l:List UInt8}
namespace Bytes
lemma agreesBy_iff (view:UInt8→UInt8)(b p:Bytes)(j:Nat):
 agreesBy view b p 0 j↔(p.list.drop j).map view <+: (b.list.drop j).map view:=by
 induction hn:p.size-j generalizing j with
 | zero=>
  rw[agreesBy,dif_neg (by omega),drop_eq_nil_of_le (by rw[length_list];omega)]
  simp
 | succ n ih=>
  have hj:j<p.size:=by omega
  rw[agreesBy,dif_pos hj,drop_list p hj]
  by_cases hb:j<b.size
  ·rw[drop_list b hb]
   have hby:p.get j hj=p.byteAt j:=by rw[byteAt,dif_pos hj]
   rw[map_cons,map_cons,cons_prefix_cons,←ih (j+1) (by omega),hby]
   simp only[zero_add,hb,decide_true,Bool.true_and,decide_eq_true_eq]
   by_cases hs:view (b.byteAt j)=view (p.byteAt j)
   ·simp[hs]
   ·simp[hs,Ne.symm hs]
  ·rw[drop_eq_nil_of_le (by rw[length_list];omega:b.list.length≤j)]
   simp[hb]
lemma startsWithNoCase_iff (b p:Bytes):startsWithNoCase b p↔p.list.map lower <+: b.list.map lower:=by
 rw[startsWithNoCase,Bool.and_eq_true,decide_eq_true_eq,agreesBy_iff]
 simp only[drop_zero,and_iff_right_iff_imp]
 intro h
 simpa[length_list]using h.length_le
lemma list_extract (b:Bytes)(i j:Nat):list (b.extract i j)=(b.list.take j).drop i:=by
 simp[list,ByteArray.data_extract,drop_take]
lemma lt_size_of_cons {d:Bytes}{c:UInt8}{r:List UInt8}(h:c::r <+: d.list.drop i):
 i<d.size∧d.byteAt i=c∧r <+: d.list.drop (i+1):=by
 have hi:i<d.size:=by
  by_contra hi
  rw[drop_eq_nil_of_le (by rw[length_list];omega)]at h
  simp at h
 rw[drop_list d hi,cons_prefix_cons]at h
 exact⟨hi,h.1.symm,h.2⟩
lemma prefix_parts {x y:List UInt8}(h:x++y <+: l.drop i):
 x <+: l.drop i∧y <+: l.drop (i+x.length):=by
 obtain⟨t,ht⟩:=h
 refine⟨⟨y++t,by rw[←append_assoc,ht]⟩,t,?_⟩
 rw[←drop_drop,←ht,append_assoc,drop_left]
end Bytes
namespace Pe.Library
lemma list_joined (fr:Bytes)(r:List Bytes):
 (r.foldl (fun b item=>b.push 44++item) fr).list=[44].intercalate ((fr::r).map list):=by
 have hp (r:List Bytes)(b:Bytes):(r.foldl (fun b item=>b.push 44++item) b).list=
  b.list++r.flatMap fun item=>44::item.list:=by
  induction r generalizing b with
  | nil=>simp
  | cons _ _ ih=>
   rw[foldl_cons,ih]
   simp[list,ByteArray.push]
 rw[hp]
 induction r generalizing fr with
 | nil=>simp
 | cons item _ ih=>
  rw[map_cons,map_cons,intercalate_cons_cons,←map_cons,←ih item]
  simp
lemma list_importText (lb:List Library):(importText lb).list=
 [44].intercalate (lb.flatMap fun l=>
  l.functions.map fun g=>((stem l.name).list++46::g.name.list).map lower):=by
 have hl (parts:List (List UInt8)):([44].intercalate parts).map lower=
  [44].intercalate (parts.map (map lower)):=by
  induction parts using twoStepInduction with
  | nil=>rfl
  | singleton p=>simp
  | cons_cons p q _ _ ih=>simp[intercalate_cons_cons,ih,lower]
 have hi:(lb.flatMap fun l=>l.functions.map fun g=>((stem l.name).list++46::g.name.list).map lower)=
  ((lb.flatMap fun l=>l.functions.map fun g=>((stem l.name).push 46)++g.name).map list).map
   (map lower):=by
  simp[map_flatMap,list,ByteArray.push,comp_def]
 rw[hi,←hl]
 simp only[importText]
 rw[foldl_eq,list_pushAll]
 cases lb.flatMap fun l=>l.functions.map fun g=>((stem l.name).push 46)++g.name with
 | nil=>rfl
 | cons fr r=>exact congrArg (map lower) (list_joined fr r)
lemma takeWhile_reverse (h:46∉l):l.reverse.takeWhile (· != 46)=l.reverse:=
 takeWhile_eq_self_iff.2 fun _ hc=>by simpa using ne_of_mem_of_not_mem (mem_reverse.1 hc) h
lemma list_stem {n:Bytes}{s e:List UInt8}(hn:n.list=s++46::e)(he:46∉e):(stem n).list=
 if (e.map lower).take 3∈[[111,99,120],[115,121,115],[100,108,108]] then s else n.list:=by
 have hsi:n.size=s.length+e.length+1:=by
  rw[←length_list,hn,length_append,length_cons]
  omega
 have hex:(n.toList.reverse.takeWhile (· != 46)).length=e.length:=by
  have hl:n.toList=s++46::e:=(toList_eq n).trans hn
  rw[hl,reverse_append,reverse_cons,append_assoc]
  simp[takeWhile_append,takeWhile_reverse he]
 have hst:n.size-e.length-1=s.length:=by omega
 have ht:list (n.extract s.length n.size)=46::e:=by
  rw[list_extract,take_of_length_le (by rw[length_list]),hn,drop_left]
 have hh:list (n.extract 0 s.length)=s:=by rw[list_extract,hn,drop_zero,take_left]
 have hs {p:Bytes} {a b c:UInt8} (hp:p.list.map lower=[46,a,b,c]):
  startsWithNoCase (n.extract s.length n.size) p↔(e.map lower).take 3=[a,b,c]:=by
  rw[startsWithNoCase_iff,ht,hp,map_cons,show lower 46=46 from rfl,cons_prefix_cons,prefix_iff_eq_take]
  exact⟨fun h=>h.2.symm,fun h=>⟨rfl,h.symm⟩⟩
 have ho:=hs (p:=ofText ".ocx") (a:=111) (b:=99) (c:=120) (by decide)
 have hsy:=hs (p:=ofText ".sys") (a:=115) (b:=121) (c:=115) (by decide)
 have hdl:=hs (p:=ofText ".dll") (a:=100) (b:=108) (c:=108) (by decide)
 have hc:([".ocx",".sys",".dll"].any fun t=>
  startsWithNoCase (n.extract s.length n.size) (ofText t))↔
   (e.map lower).take 3∈[[111,99,120],[115,121,115],[100,108,108]]:=by
  simp only[any_cons,any_nil,Bool.or_false,Bool.or_eq_true,ho,hsy,hdl,mem_cons,not_mem_nil,or_false]
 simp only[stem,hex,hst,show e.length<n.size by omega,decide_true,Bool.true_and,hc]
 split
 ·exact hh
 ·rfl
lemma stem_eq {name:Bytes}(h:46∉name.list):stem name=name:=by
 have he:(name.toList.reverse.takeWhile (· != 46)).length=name.size:=by
  have hl:name.toList=name.list:=toList_eq name
  rw[hl,takeWhile_reverse h,length_reverse,length_list]
 simp[stem,he]
end Pe.Library
namespace Module.Pe
open PatternScan.Pe
/-- The digest of the imports is that of the functions with the stems of their libraries, in lower case and with
commas between them. -/
theorem import_hash_text (f:File) (base:Nat) (memory:Bool) (c:Call) :
 let text:=Library.importText f.imports
 let known:=[[111,99,120],[115,121,115],[100,108,108]]
 call .importHash (some (Image.ofFile f base memory)) c=textResult (.ofText (Bytes.hex (Digest.md5 text))) ∧
 text.list=[44].intercalate (f.imports.flatMap fun l=>
  l.functions.map fun g=>((Library.stem l.name).list++46::g.name.list).map Bytes.lower) ∧
 ∀name:Bytes,(46∉name.list → Library.stem name=name) ∧
  ∀s e,name.list=s++46::e → 46∉e →
   let extension:=e.map Bytes.lower
   (Library.stem name).list=(if extension.take 3∈known then s else name.list) ∧
   ((Library.stem name).list=(if extension∈known then s else name.list) ↔
    (extension.take 3∈known → e.length ≤ 3)) := by
 refine⟨rfl,Library.list_importText _,fun name=>⟨Library.stem_eq,fun s e hname he=>?_⟩⟩
 have hstem:=Library.list_stem hname he
 refine⟨hstem,?_⟩
 rw[hstem]
 by_cases hsh:e.length≤3
 ·rw[take_of_length_le (by simpa using hsh)]
  exact iff_of_true rfl fun _=>hsh
 ·have hlong:e.map Bytes.lower∉[[111,99,120],[115,121,115],[100,108,108]]:=fun hmem=>by
   have hlen:(e.map Bytes.lower).length=3:=by
    revert hmem
    generalize e.map Bytes.lower=t
    simp only[mem_cons,not_mem_nil,or_false]
    rintro (rfl|rfl|rfl)<;>rfl
   rw[length_map]at hlen
   omega
  have hne:s≠name.list:=fun h=>by simp[hname]at h
  rw[if_neg hlong]
  split
  ·next hknown=>exact iff_of_false hne fun h=>hsh (h hknown)
  ·next hother=>exact iff_of_true rfl fun h=>absurd h hother
def importer (library function:List UInt8):File:=
 sample 1 [words [332,0,0,352,332,353+library.length,0,0,0,0],.ofList (library++0::0::0::function++[0])]
theorem import_hash_text_one :
 let f:=importer [65,46,68,76,76] [70]
 (Library.importText f.imports).list=[97,46,102]∧(Library.stem ⟨#[65,46,68,76,76]⟩).list=[65]:=by
 have h:=import_hash_text (importer [65,46,68,76,76] [70]) 0 false ⟨[],[],.empty⟩
 exact⟨h.2.1.trans (by decide +kernel),((h.2.2 ⟨#[65,46,68,76,76]⟩).2 [65] [68,76,76] rfl (by decide)).1⟩

/-- The name of a library loses an extension that only begins like one of the three. -/
theorem stem_longer_extension :
 let f:=importer [97,46,100,108,108,120] [102]
 f.imports.map (·.name.list)=[[97,46,100,108,108,120]]∧(Library.importText f.imports).list=[97,46,102]:=by
 decide +kernel
end Module.Pe
variable {s:Bytes}{n:Nat}{σ:Type}
namespace Regex.Machine
variable {c:Code}{f:RunFlags}{inp:Input}{allowed:Allowance}{read:Nat}{lengths:Array Nat}
/-- The last of the lengths is the largest, and not beyond what is read. -/
def Rising (read:Nat)(lengths:Array Nat):Prop:=
 (∀k∈lengths,k≤read)∧∀j∈lengths.back?,∀k∈lengths,k≤j
lemma Rising.push (h:Rising read lengths):Rising read (lengths.push read):=by
 have hle:∀k∈lengths.push read,k≤read:=by
  intro k hk
  obtain hk|rfl:=Array.mem_push.1 hk
  ·exact h.1 k hk
  ·exact le_rfl
 refine⟨hle,fun j hj=>?_⟩
 rw[Array.back?_push,Option.mem_some_iff]at hj
 exact hj▸hle
lemma rising_sweep (v:View)(fl:Nat)(ts d:List Thread)(p:Pool)(lengths:Array Nat):Rising v.read lengths→
 Rising v.read (sweep allowed c f v fl ts d p lengths).2:=by
 fun_induction sweep allowed c f v fl ts d p lengths with
 | case4=>
  next ih=>
  exact fun h=>ih h.push
 | case5=>exact .push
 | _=>first | assumption | exact id
lemma rising_rounds (e n:Nat):∀(read:Nat)(s:State),Rising read s.lengths→
 ∃r,Rising r (rounds allowed c f inp e n read s).lengths:=by
 induction n with
 | zero=>exact fun read _ h=>⟨read,h⟩
 | succ n ih=>
  intro read s h
  rw[rounds]
  split
  ·exact⟨read,h⟩
  have hr:=@rising_sweep c f allowed (view f inp read) allowed.sweep
   (Thread.distinct s.threads [] s.pool).1 [] (Thread.distinct s.threads [] s.pool).2 s.lengths h
  dsimp only
  split
  ·next he=>
   rw[he]at hr
   exact⟨_,hr⟩
  next s' lengths he=>
  have hs:=sweep_lengths (congrArg Prod.fst he)
  rw[he]at hr hs
  have hn:Rising (read+width f) s'.lengths:=by
   rw[hs]
   exact⟨fun k hk=>(hr.1 k hk).trans (Nat.le_add_right _ _),hr.2⟩
  split
  ·split
   ·next s' hsp=>
    obtain⟨-,-,-,-,hl⟩:=spawn_eq_ok hsp
    exact ih _ _ (hl▸hn)
   ·exact⟨_,hr⟩
  ·exact ih _ _ hn
lemma any_last? (c:Code)(e:Nat)(f:RunFlags)(inp:Input):
 (run c e f inp).last?.any (0<·)=(run c e f inp).lengths.any (0<·):=by
 have hr:∃r,Rising r (run c e f inp).lengths:=by
  unfold run runWithin
  split
  ·next hs=>
   obtain⟨-,-,-,-,hl⟩:=spawn_eq_ok hs
   refine rising_rounds _ _ _ _ ?_
   rw[hl]
   exact⟨nofun,nofun⟩
  ·exact⟨0,nofun,nofun⟩
 obtain⟨r,-,hla⟩:=hr
 rw[Bool.eq_iff_iff,Option.any_eq_true,Array.any_eq_true']
 refine⟨fun⟨j,hj,hp⟩=>⟨j,Array.mem_of_back? hj,hp⟩,fun⟨k,hk,hp⟩=>?_⟩
 obtain⟨j,hj⟩:=Option.isSome_iff_exists.1 (Array.back?_isSome.2 (Array.ne_empty_of_mem hk))
 rw[decide_eq_true_eq]at hp
 exact⟨j,hj,decide_eq_true (hp.trans_le (hla j hj k hk))⟩
end Regex.Machine
namespace Pe
variable {f:File}
lemma untilNul_plain {p:UInt8→Bool}(hz:p 0=false)(h:anyByte s (!p ·)=false):
 s.untilNul=s:=by
 have ha (l:List UInt8)(r:Bool):l.foldl (fun r c=>r||!p c) r=(r||l.any (!p ·)):=by
  induction l generalizing r with
  | nil=>simp
  | cons c l ih=>rw[foldl_cons,ih,any_cons,Bool.or_assoc]
 rw[anyByte,foldl_eq,ha,Bool.false_or,any_eq_false]at h
 refine Base64.untilNul_eq fun c hc hn=>h c hc ?_
 rw[hn,hz]
 rfl
def Library.Plain (l:Library):Prop:=
 anyByte l.name (!isLibraryByte ·)=false∧∀g∈l.functions,isFunctionName g.name=true
lemma functionsFrom_plain {l:Bytes}{n i s r:Nat}{fn:List ImportedFunction}
 (h:∀g∈fn,isFunctionName g.name):
 ∀g∈f.functionsFrom l n i s r fn,isFunctionName g.name:=by
 fun_induction functionsFrom f l n i s r fn with
 | case1 | case2=>simpa using h
 | case3 _ _ _ _ _ _ _ _ _ _ _ hn _ ih=>exact ih (forall_mem_cons.2 ⟨hn,h⟩)
 | case4 _ _ _ _ _ _ _ _ _ _ _ _ ih | case5 _ _ _ _ _ _ _ _ _ _ ih=>exact ih h
lemma librariesFrom_plain {i r:Nat}{fn:List Library}(h:∀l∈fn,l.Plain):
 ∀l∈f.librariesFrom n i r fn,l.Plain:=by
 fun_induction librariesFrom f n i r fn with
 | case1 | case2=>simpa using h
 | case4 _ _ _ _ _ _ nm hn functions _ ih=>
  refine ih (forall_mem_cons.2 ⟨⟨?_,fun g hg=>?_⟩,h⟩)
  ·obtain⟨i,-,hn⟩:=Option.bind_eq_some_iff.1 hn
   simp only[libraryName?]at hn
   grind
  simp only[functions,describedFunctions]at hg
  obtain⟨start,hst⟩:∃start:Option Nat,g∈start.elim [] fun start =>
   f.functionsFrom nm importLimit start (f.word (_+16)) _ []:=⟨_,hg⟩
  cases start with
  | none=>cases hst
  | some _=>exact @functionsFrom_plain _ _ _ _ _ _ [] nofun g hst
 | case3 _ _ _ _ _ _ _ _ _ _ ih | case5 _ _ _ _ _ _ _ ih=>exact ih h
lemma imports_plain (f:File):∀l∈f.imports,l.Plain:=by
 rw[imports]
 cases f.directoryOffset? 1 with
 | none=>exact nofun
 | some i=>exact librariesFrom_plain nofun
end Pe
namespace Module.Pe
open PatternScan.Pe
open Condition (Environment Matcher matcherRun matchResult searcher asked)
def importedNames (libraries:List Library):List (Bytes×Bytes):=
 libraries.flatMap fun l=>l.functions.map fun g=>(l.name,g.name)
lemma countMatching_eq (c:Call)(n:Nat)(lb:List Library):
 countMatching c n lb=(importedNames lb).countP fun p =>
  (c.matchLength? n p.1).any (0<·)&&(c.matchLength? (n+1) p.2).any (0<·):=by
 have hs (t:Nat):(lb.filter fun l=>(c.matchLength? n l.name).any (0<·)).foldl
  (fun t l=>t+(l.functions.filter fun f=>(c.matchLength? (n+1) f.name).any (0<·)).length) t=
  t+(importedNames lb).countP fun p =>
   (c.matchLength? n p.1).any (0<·)&&(c.matchLength? (n+1) p.2).any (0<·):=by
  induction lb generalizing t with
  | nil=>rfl
  | cons l _ ih=>
   rw[importedNames,flatMap_cons,countP_append,countP_map,←importedNames,filter_cons]
   cases hn:(c.matchLength? n l.name).any (0<·) with
   | false=>simp[ih,hn,comp_def]
   | true=>
    simp[ih,hn,comp_def,countP_eq_length_filter]
    omega
 rw[countMatching,hs,zero_add]
lemma call_importsMatching (f:File)(b:Nat)(m:Bool)(c:Call):
 call .importsMatching (some (Image.ofFile f b m)) c=.ofNat (countMatching c 1 f.imports):=rfl
lemma matchLength?_eq (e:Environment σ){c:Call}(hc:c.regexCode=e.set.regexCode)
 {m:Matcher}(hm:c.argument n=.matcher m)(hs:s.untilNul=s):
 (c.matchLength? n s).any (0<·)=(matcherRun e m (.text s)).lengths.any (0<·):=by
 rw[Call.matchLength?,hm,hc]
 rw[hs,Regex.Machine.any_last?]
 rfl
lemma matchResult_holds {e:Environment σ}{m:Matcher}(hc:(matcherRun e m (.text s)).code=.success):
 (matchResult e (.text s) (.matcher m)).any (·.isTrue)=!(matcherRun e m (.text s)).lengths.isEmpty:=by
 have hde:((Condition.Cell.text s).isUndefined||(Condition.Cell.matcher m).isUndefined)=false:=rfl
 rw[matchResult,if_neg (by rw[hde];decide)]
 dsimp only
 rw[hc,if_pos (beq_self_eq_true _)]
 cases (matcherRun e m (.text s)).lengths.isEmpty<;>rfl
lemma advances_holds {e:Environment σ}{m:Matcher}
 (hc:(matcherRun e m (.text s)).code=.success)(h:(matcherRun e m (.text s)).lengths.any (0<·)):
 (matchResult e (.text s) (.matcher m)).any (·.isTrue):=by
 obtain⟨k,hk,-⟩:=Array.any_eq_true'.1 h
 rw[matchResult_holds hc,Array.isEmpty_eq_false_iff.2 (Array.ne_empty_of_mem hk)]
 rfl

/-- The number of imported functions whose names two regular expressions match, and the number of those that
count: a match that ends at the start of a name does not. -/
theorem imports_matching {σ:Type} (e:Environment σ) (f:File) (base:Nat) (memory:Bool) (d g:Matcher)
 (blocks:List Scan.SourceBlock) :
 let names:=importedNames f.imports
 let holds (m:Matcher) (s:Bytes):=(matchResult e (.text s) (.matcher m)).any (·.isTrue)
 let advances (m:Matcher) (s:Bytes):=(matcherRun e m (.text s)).lengths.any (0<·)
 let counted:=names.countP fun p=>advances d p.1 && advances g p.2
 call .importsMatching (some (Image.ofFile f base memory)) ⟨[.matcher d,.matcher g],blocks,e.set.regexCode⟩ =
  .ofNat counted ∧
 ((∀p∈names,(matcherRun e d (.text p.1)).code=.success ∧ (matcherRun e g (.text p.2)).code=.success) →
  counted ≤ names.countP (fun p=>holds d p.1 && holds g p.2) ∧
  (counted=names.countP (fun p=>holds d p.1 && holds g p.2) ↔
   ∀p∈names,holds d p.1=true → holds g p.2=true → advances d p.1=true ∧ advances g p.2=true)) := by
 intro names holds advances counted
 have hplain:∀p∈names,p.1.untilNul=p.1∧p.2.untilNul=p.2:=by
  intro p hp
  obtain⟨l,hl,hp⟩:=mem_flatMap.mp hp
  obtain⟨h,hh,rfl⟩:=mem_map.mp hp
  obtain⟨hname,hfuns⟩:=imports_plain f l hl
  have hfun:=hfuns h hh
  simp only[File.isFunctionName,Bool.and_eq_true,Bool.not_eq_true']at hfun
  exact⟨untilNul_plain rfl hname,untilNul_plain rfl hfun.2⟩
 refine⟨?_,fun hcode=>?_⟩
 ·rw[call_importsMatching,countMatching_eq]
  refine congrArg _ (countP_congr fun p hp=>?_)
  rw[matchLength?_eq e rfl rfl (hplain p hp).1,matchLength?_eq e rfl rfl (hplain p hp).2]
 ·have hholds:∀p∈names,(advances d p.1&&advances g p.2)=true→(holds d p.1&&holds g p.2)=true:=by
   simp only[Bool.and_eq_true]
   exact fun p hp ⟨hd,hg⟩=>⟨advances_holds (hcode p hp).1 hd,advances_holds (hcode p hp).2 hg⟩
  have hle:=countP_mono_left hholds
  refine⟨hle,fun h p hp hd hg=>?_,fun h=>?_⟩
  ·have hsplit:=countP_eq_countP_filter_add names (fun p=>holds d p.1&&holds g p.2) fun p=>advances d p.1&&advances g p.2
   have hfst:=countP_eq_length.mpr fun p hp=>hholds p (mem_filter.mp hp).1 (mem_filter.mp hp).2
   rw[hfst,←countP_eq_length_filter,←h,Nat.left_eq_add,countP_eq_zero]at hsplit
   have hnone:=mt (hsplit p) (not_not.mpr (by rw[hd,hg];rfl))
   simpa[hp]using hnone
  ·refine le_antisymm hle (countP_mono_left fun p hp hboth=>?_)
   rw[Bool.and_eq_true]at hboth
   exact (Bool.and_eq_true _ _).mpr (h p hp hboth.1 hboth.2)

/-- An option that only matches nothing in two names of one byte. -/
theorem empty_match_uncounted :
 let f:=importer [97] [70]
 let option : Regex.Pattern := ⟨.cat [.range 0 1 true (.literal 120 true)],⟨false,false,true,false⟩⟩
 importedNames f.imports=[(⟨#[97]⟩,⟨#[70]⟩)]∧asked option ⟨#[97]⟩=some true∧asked option ⟨#[70]⟩=some true∧
 call .importsMatching (some (Image.ofFile f 0 false))
  ⟨[.matcher ⟨0,false,false⟩,.matcher ⟨0,false,false⟩],[],(searcher option).set.regexCode⟩=.ofNat 0:=by
 intro f option
 have hcnt:countMatching ⟨[.matcher ⟨0,false,false⟩,.matcher ⟨0,false,false⟩],[],(searcher option).set.regexCode⟩ 1
  f.imports=0:=by decide +kernel
 refine⟨by decide +kernel,by decide +kernel,by decide +kernel,?_⟩
 rw[call_importsMatching,hcnt]
end Module.Pe
end PatternScan
