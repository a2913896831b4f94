import PatternScan.Proofs.Scan.Offsets
/-! Where a text is recorded, also one that must have no letter or digit next to it. -/
open List
open PatternScan.Scan PatternScan.Form PatternScan.Bytes PatternScan.Limits
namespace PatternScan
open Automaton (Trie)
variable {l:List UInt8}{text d:Bytes}
lemma Regex.Node.findCut_literals {ns:List Node}
 (h:literalBytes? ns=some l)(d:List Node):
 findCut d ns=none:=by
 induction ns generalizing l d with
 | nil=>rfl
 | cons n _ ih=>
  cases n with
  | literal _ v=>
   obtain⟨l,hl,-⟩:=Option.map_eq_some_iff.1 h
   exact ih hl _
  | _=>cases h
namespace Rule
open Compiler
/-- Fewer offsets have a property than matches of a string are recorded. -/
def Few (P:Nat→Prop):Prop:=
 ∃offsets:Finset Nat,offsets.card<stringMatches∧∀o,P o → o∈offsets

/-- A search of a block that ends well, with no match of a string before it. -/
structure Search (C:Compiler)(s:SearchSetting)(b:Block)(j:Nat)(p p':Progress):Prop where
 set:s.set=C.ruleSet
 fast:s.fast=false
 even:b.Even
 sized:p.findings.Sized s.set.strings.size
 empty:p.findings.of j=.empty
 loud:¬p.Silent j
 search:p.search s b=(.success,p')
lemma Search.records {C:Compiler}{s:SearchSetting}{b:Block}{j:Nat}{p p':Progress}
 (h:Search C s b j p p')(hsh:C.Short){lists:List (Nat×List AtomItem)}
 (hs:C.Sound lists)(hj:j<C.strings.size)(hl:Lone (C.string j))
 (hn:j+1<C.strings.size→(C.string (j+1)).link=none){m:Modifier}
 (hw:Words s b lists j m text)(hf:Few fun o=>∃(form:PatternScan.Form)(k:UInt8),
  form.Tried k m.flags∧b.data.Spelled m.flags.noCase o (form.coded k text.list))(o:Nat):
 ((∃(form:PatternScan.Form)(k:UInt8),form.Worded k m.flags m.keys∧
  b.data.Spelled m.flags.noCase o (form.coded k text.list))→(p'.findings.of j).Has o)∧
  ((p'.findings.of j).Has o→∃(form:PatternScan.Form)(k:UInt8),form.Tried k m.flags∧
   (Exact m.flags m.keys text.size→form.Worded k m.flags m.keys)∧
   b.data.Spelled m.flags.noCase o (form.coded k text.list)):=by
 obtain⟨offsets,hc,hm⟩:=hf
 obtain⟨-,hha⟩:=search_has hs hsh h.set h.fast hj hl hn h.even hc (fun x hx i he hit hh=>by
   obtain⟨form,k,ht,-,-,hsp⟩:=hw.sound x hx i he hit hh
   exact hm _ ⟨form,k,ht,hsp⟩) h.sized h.empty h.loud h.search
 rw[hha]
 constructor
 ·rintro⟨form,k,hwo,hsp⟩
  exact hw.complete form k o hwo hsp
 ·rintro⟨x,hx,i,he,hit,hh,rfl⟩
  obtain⟨form,k,ht,hex,-,hsp⟩:=hw.sound x hx i he hit hh
  exact⟨form,k,ht,hex,hsp⟩
lemma Modifier.searched_declared {m:Modifier}(n:String)(f:PatternScan.Form):
 f.Searched (m.declared n).flags↔f.Searched m.flags:=by
 cases f<;>simp only[Searched,declared]
 cases m.flags.wide<;>simp

/-- A text is recorded at each offset at which it stands in one of its forms and under one of its keys. Where it is
recorded, it stands in a form and under a key that are tried, its own unless it has `xor`, `wide` and three bytes or
more. -/
theorem search_text {c c₁ C:Compiler} (hc:c.Started) {name:String} {m:Modifier} {text:Bytes}
 (hdeclare:(declareString name m text).run c = (.ok (),c₁)) (hlater:c₁.Reaches C)
 {ascii wide noCase xor hidden:Bool} (hm:m.flags = { StringFlags.none with
  ascii := ascii,wide := wide,noCase := noCase,xor := xor,hidden := hidden })
 (hfixed:(C.string c.strings.size).flags.fixedOffset = false) (hshort:C.Short)
 {s:SearchSetting} {b:Block} {p p':Progress} (hsearch:Search C s b c.strings.size p p')
 (hfew:Few fun o=>∃ (form:PatternScan.Form) (k:UInt8),form.Tried k m.flags ∧
  b.data.Spelled noCase o (form.coded k text.list)) (o:Nat) :
 ((∃ (form:PatternScan.Form) (k:UInt8),form.Worded k m.flags m.keys ∧
  b.data.Spelled noCase o (form.coded k text.list)) → (p'.findings.of c.strings.size).Has o) ∧
  ((p'.findings.of c.strings.size).Has o → ∃ (form:PatternScan.Form) (k:UInt8),
   form.Tried k m.flags ∧ (Exact m.flags m.keys text.size → form.Worded k m.flags m.keys) ∧
   b.data.Spelled noCase o (form.coded k text.list)) := by
 obtain⟨lists,hsnd⟩:=hc.sound
 obtain⟨hne,hkeyed,lists₁,hext,hsize,hcarries,hpart⟩:=declareString_text hdeclare
  (by rw[hm];rfl) hsnd
 obtain⟨lists₂,hs,hcarries,hpart',hnext⟩:=hcarries.later hext.sound hsize hlater
 have hsrch:=m.searched_declared name
 have hworded:∀(f:PatternScan.Form) k,f.Worded k (m.declared name).flags (m.declared name).keys↔
  f.Worded k m.flags m.keys:=fun f k=>and_congr_left fun _=>hsrch f
 have htried:∀(f:PatternScan.Form) k,f.Tried k (m.declared name).flags↔f.Tried k m.flags :=
  fun f k=>and_congr_right fun _=>imp_congr_right fun _=>and_congr_left fun _=>hsrch f
 have hexact:Exact m.flags m.keys text.size→
  Exact (m.declared name).flags (m.declared name).keys text.size:=by
  intro h hxor hwide
  refine (h hxor hwide).imp_right fun h=>⟨?_,h.2⟩
  rw[Modifier.declared,h.1]
  rfl
 have hcase:(m.declared name).flags.noCase=noCase:=by rw[Modifier.declared,hm]
 have hlone:Lone (C.string c.strings.size):=by
  refine⟨(hpart'.trans hpart).trans ?_,(hcarries.flag_eq StringFlags.fullWord).trans ?_⟩ <;>
   simp only[Modifier.declared,hm]<;>rfl
 have hwords:Words s b lists₂ c.strings.size (m.declared name) text:=by
  refine hcarries.words hs hshort hsearch.set ?_ (fun hxor=>?_) ?_ ?_ rfl hne hfixed
  ·simp only[Modifier.declared,hm]
   cases wide
   ·exact .inl (Bool.or_true _)
   ·exact .inr rfl
  ·rwa[show m.flags.xor=true from hxor,Bool.true_and]at hkeyed
  all_goals simp only[Modifier.declared,hm]
  ·exact⟨rfl,rfl⟩
  ·rfl
 simp only[←hworded,←htried,←hcase]at hfew⊢
 obtain⟨hcomp,hsnd⟩:=hsearch.records hshort hs hcarries.lt hlone hnext hwords hfew o
 refine⟨hcomp,fun hhas=>?_⟩
 obtain⟨form,k,hform,hword,hspelled⟩:=hsnd hhas
 exact⟨form,k,hform,fun h=>hword (hexact h),hspelled⟩
lemma few_of_stands (hda:d.size<stringMatches)
 (hne:0<l.length):Few fun o=>l <+: d.list.drop o:=by
 refine⟨Finset.range d.size,by rwa[Finset.card_range],fun o h=>?_⟩
 have hf:=h.length_le
 rw[length_drop,length_list]at hf
 exact Finset.mem_range.2 (by omega)
lemma few_of_spelled (hda:d.size<stringMatches)
 (hne:0<text.size){n:Bool}{T:PatternScan.Form→UInt8→Prop}:
 Few fun o=>∃form k,T form k∧d.Spelled n o (form.coded k text.list):=by
 refine⟨Finset.range d.size,by rwa[Finset.card_range],?_⟩
 rintro o ⟨form,k,-,hs⟩
 have hf:=hs.length_le
 have hw:=Nat.mul_pos form.width_pos hne
 rw[length_coded,length_list]at hf
 exact Finset.mem_range.2 (by omega)
def foundIn (C:Compiler)(data:Bytes):ResultCode×Progress:=
 let x:=Scanner.create C.ruleSet
 (x.outset (Source.ofBytes data)).2.search (x.searchSetting {} default) ⟨0,data⟩
lemma search_create (C:Compiler)(hda:d.size<stringMatches)(j:Nat)
 (hc:(foundIn C d).1=.success):
 let x:=Scanner.create C.ruleSet
 Search C (x.searchSetting {} default) ⟨0,d⟩ j (x.outset (Source.ofBytes d)).2 (foundIn C d).2:=by
 intro x
 obtain⟨hs,he,hl⟩:=x.outset_ofBytes rfl d j
 have hf:(ScanFlags.ofMask x.mask).fast=false:=by
  rw[show x.mask=24 from rfl]
  decide
 refine⟨rfl,hf,?_,hs,he,hl,Prod.ext hc rfl⟩
 change (0:Int64).toInt+_<_
 have hli:stringMatches=1000000:=rfl
 simp only[Int64.toInt_zero]
 omega
def declaredAs (m:Modifier)(text:Bytes):Compiler:=
 ((perform .found [.literal (.name "$a")] []).run ((declareString "$a" m text).run ruleOpened).2).2
def keyed (wide:Bool)(lo hi:UInt8):Modifier where
 flags:={StringFlags.none with ascii:=!wide,wide:=wide,xor:=true}
 keys:=(lo,hi)
theorem search_text_keyed :
 let m:=keyed false 1 3
 let text:Bytes:=⟨#[97,98,99,100]⟩
 let data:Bytes:=⟨#[0,99,96,97,102]⟩
 let r:=foundIn (declaredAs m text) data
 r.1=.success∧(r.2.findings.of 0).Has 1∧∀ o,(r.2.findings.of 0).Has o ↔
  ∃ (form:PatternScan.Form) (k:UInt8),form.Worded k m.flags m.keys∧
   data.Spelled false o (form.coded k text.list):=by
 intro m text data r
 have hcode:r.1=.success:=by decide +kernel
 have hsearch:=search_text started_ruleOpened (run_eq_ok (by decide +kernel)) (.single (.action ..))
  rfl (by decide +kernel) (short_of_one (by decide +kernel) (by decide +kernel))
  (search_create (declaredAs m text) (by decide) 0 hcode) (few_of_spelled (by decide) (by decide))
 refine⟨hcode,(hsearch 1).1 ⟨.plain,2,⟨.inl rfl,by decide⟩,?_⟩,fun o=>⟨fun hhas=>?_,(hsearch o).1⟩⟩
 ·exact Bytes.spelled_false.2 (by decide)
 ·obtain⟨form,k,-,hexact,hspelled⟩:=(hsearch o).2 hhas
  exact⟨form,k,hexact nofun,hspelled⟩

/-- A wide text is recorded where only its plain form stands. -/
theorem search_text_astray :
 let m:=keyed true 1 2
 let text:Bytes:=⟨#[65,0,0]⟩
 let data:Bytes:=⟨#[64,1,1,1]⟩
 let r:=foundIn (declaredAs m text) data
 r.1=.success∧(r.2.findings.of 0).toList.map (·.offset)=[0]∧
  ∀ (form:PatternScan.Form) (k:UInt8),form.Worded k m.flags m.keys →
   ¬ data.Spelled false 0 (form.coded k text.list):=by
 refine⟨by decide +kernel,by decide +kernel,fun form k hworded hspelled=>?_⟩
 cases form with
 | plain=>rcases hworded.1 with h|h|h|h<;>cases h
 | wide=>
  have hfit:=hspelled.length_le
  rw[Form.length_coded]at hfit
  exact absurd hfit (by decide)

/-- A hex string of bytes only is recorded at each offset of a block at which its bytes stand, and at
no other. -/
theorem search_bytes {c c₁ C:Compiler} (hc:c.Started) {name:String} {m:Modifier} {text:Bytes}
 (hdeclare:(declareString name m text).run c = (.ok (),c₁)) (hlater:c₁.Reaches C)
 {hidden:Bool} (hm:m.flags = { StringFlags.none with hexadecimal := true,hidden := hidden })
 {p:Regex.Pattern} (hread:HexString.read text = .ok p) {bytes:Bytes}
 (hbytes:p.root.literal? = some bytes)
 (hfixed:(C.string c.strings.size).flags.fixedOffset = false) (hshort:C.Short)
 {s:SearchSetting} {b:Block} {q q':Progress} (hsearch:Search C s b c.strings.size q q')
 (hfew:Few fun o=>bytes.list <+: b.data.list.drop o) (o:Nat) :
 (q'.findings.of c.strings.size).Has o ↔ bytes.list <+: b.data.list.drop o := by
 have hwhole:p.split.2=none:=by
  unfold Regex.Pattern.split
  split
  ·next parts hroot=>
   rw[hroot]at hbytes
   obtain⟨l,hl,-⟩:=Option.map_eq_some_iff.mp hbytes
   rw[Regex.Node.findCut_literals hl]
  ·rfl
 obtain⟨lists,hs,hcarries,hpart,hnext⟩:=declareString_carries hc hdeclare hlater
  (by rw[hm];rfl) (by rw[Modifier.Reads,hm];exact hread) hwhole
 have hsgl:((m.declared name).forPattern p).Single:=by
  constructor<;>simp only[Modifier.declared,Modifier.forPattern,hm]
  any_goals rfl
  exact⟨rfl,rfl⟩
 have hcase:((m.declared name).forPattern p).flags.noCase=false:=by
  simp only[Modifier.declared,Modifier.forPattern,hm]
  rfl
 have hlone:Lone (C.string c.strings.size):=by
  refine⟨hpart.trans ?_,(hcarries.flag_eq StringFlags.fullWord).trans ?_⟩ <;>
   simp only[Modifier.declared,Modifier.forPattern,hm]<;>rfl
 have hne:0<bytes.size:=by
  refine Regex.Node.literal_nonempty (fun hroot=>?_) hbytes
  have hshaped:=(HexString.read_shaped text p hread).1
  rw[hroot]at hshaped
  cases hshaped with
  | byte h=>exact h
  | cat h=>exact h rfl
 have hwords:Words s b lists c.strings.size ((m.declared name).forPattern p) bytes :=
  hcarries.words hs hshort hsearch.set (.inl hsgl.ascii) (by simp[hsgl.xor])
   hsgl.base hsgl.fits hbytes hne hfixed
 have htried:∀{o:Nat} {form:PatternScan.Form} {k:UInt8},form.Tried k ((m.declared name).forPattern p).flags→
  b.data.Spelled ((m.declared name).forPattern p).flags.noCase o (form.coded k bytes.list)→
  bytes.list <+: b.data.list.drop o:=by
  intro o form k hform hspelled
  obtain⟨rfl,rfl⟩:=hsgl.tried hform
  rwa[hcase,Form.coded_plain,Bytes.spelled_false]at hspelled
 obtain⟨offsets,hcard,hmem⟩:=hfew
 obtain⟨hcomp,hsnd⟩:=hsearch.records hshort hs hcarries.lt hlone hnext hwords
  ⟨offsets,hcard,by rintro o ⟨form,k,hform,hspelled⟩;exact hmem o (htried hform hspelled)⟩ o
 constructor
 ·intro hhas
  obtain⟨form,k,hform,-,hspelled⟩:=hsnd hhas
  exact htried hform hspelled
 ·intro hstd
  refine hcomp ⟨.plain,0,hsgl.worded,?_⟩
  rwa[hcase,Form.coded_plain,Bytes.spelled_false]
theorem search_bytes_three :
 let m:Modifier:={ flags := { StringFlags.none with hexadecimal := true } }
 let text:Bytes:=⟨#[123,48,49,32,48,50,32,48,51,125]⟩
 let data:Bytes:=⟨#[1,1,2,3,1,2,3]⟩
 let r:=foundIn (declaredAs m text) data
 r.1=.success∧∀ o,(r.2.findings.of 0).Has o↔[1,2,3] <+: data.list.drop o:=by
 intro m text data r
 have hcode:r.1=.success:=by decide +kernel
 have hread:(HexString.read text).map (·.root.literal?)=.ok (some ⟨#[1,2,3]⟩):=by decide +kernel
 cases hp:HexString.read text with
 | error e=>
  rw[hp]at hread
  cases hread
 | ok p=>
  rw[hp]at hread
  have hm:m.flags={StringFlags.none with hexadecimal:=true,hidden:=false}:=rfl
  exact⟨hcode,search_bytes started_ruleOpened (run_eq_ok (by decide +kernel)) (.single (.action ..))
   hm hp (Except.ok.inj hread) (by decide +kernel)
   (short_of_one (by decide +kernel) (by decide +kernel))
   (search_create (declaredAs m text) (by decide) 0 hcode) (few_of_stands (by decide) (by decide))⟩

/-- An atom 65532 bytes behind the start of its text is registered as one that ends there. -/
theorem search_bytes_wrapped :
 let x:AtomItem:=⟨Atom.ofBytes [1,2,3,4],65532,⟨none,none⟩⟩
 (({}:Trie).add 0 [x]).pool.toList.map (·.backtrack)=[0]:=by
 decide
end Rule
open Rule.Compiler (Ends hitsFor)
variable {o i:Nat}{wide:Bool}{x:AtomItem}
def Form.isWide:Form→Bool
 | .plain=>false
 | .wide=>true
def Bytes.Lettered (data:Bytes)(form:Form)(o:Nat):Prop:=
 o+form.width≤data.size∧isAlnum (data.byteAt o)=true∧(form=.wide→data.byteAt (o+1)=0)

/-- No letter or digit stands right before some bytes or right behind them. -/
def Bytes.Delimited (data:Bytes)(form:Form)(o n:Nat):Prop:=
 (∀i,i+form.width=o→¬data.Lettered form i)∧¬data.Lettered form (o+n)
namespace Scan
lemma standsAlone_iff {d:Bytes}(ho:o≤d.size)(n:Nat)(f:Form):
 standsAlone d o n f.isWide↔d.Delimited f o n:=by
 have hb:(∀i,i+f.width=o→¬d.Lettered f i)↔
  ¬(f.width≤o∧d.Lettered f (o-f.width)):=by
  grind
 rw[Delimited,standsAlone]
 cases f with
 | plain=>grind [isWide,Lettered,width]
 | wide=>grind [isWide,Lettered,width]

/-- The neighbours of a match are read in single bytes where an atom has no code to run backwards. -/
def judgedAs (literal:Bool)(x:AtomItem)(form:Form):Form:=
 if literal||x.entry.backward.isSome then form else .plain
lemma isWide_judgedAs (l:Bool)(x:AtomItem)(f:Form):
 (judgedAs l x f).isWide=((l||x.entry.backward.isSome)&&f.isWide):=by
 rw[judgedAs]
 split
 ·next h=>rw[h,Bool.true_and]
 ·next h=>rw[Bool.eq_false_of_not_eq_true h,Bool.false_and,isWide]

/-- Each of some matches has a property, and all that have it are among them, if the run that gave them ended well. -/
structure Gives (code:ResultCode)(hits:List Hit)(P:Nat→Nat→Bool→Prop):Prop where
 sound:∀h∈hits,P h.offset h.length h.wide
 complete:code=.success→∀o n w,P o n w→∃h∈hits,h.offset=o∧h.length=n∧h.wide=w
section
variable {code:ResultCode}{hits hits':List Hit}{P Q:Nat→Nat→Bool→Prop}
lemma Gives.none (h:code=.success→∀o n w,¬P o n w):Gives code [] P:=
 ⟨nofun,fun hok o n w hP=>absurd hP (h hok o n w)⟩
lemma Gives.congr (h:Gives code hits P)(hPQ:∀o n w,P o n w↔Q o n w):Gives code hits Q:=
 ⟨fun x hx=>(hPQ _ _ _).1 (h.sound x hx),fun hok o n w hQ=>h.complete hok o n w ((hPQ o n w).2 hQ)⟩
lemma Gives.append (h:Gives .success hits P)(h':Gives code hits' Q):
 Gives code (hits++hits') fun o n w=>P o n w∨Q o n w where
 sound x hx:=(mem_append.1 hx).imp (h.sound x) (h'.sound x)
 complete hok o n w:=by
  rintro (hP|hQ)
  ·obtain⟨x,hx,heq⟩:=h.complete rfl o n w hP
   exact⟨x,mem_append_left _ hx,heq⟩
  ·obtain⟨x,hx,heq⟩:=h'.complete hok o n w hQ
   exact⟨x,mem_append_right _ hx,heq⟩
end
section
variable (c:SearchSetting)(b:Block)(j m:Nat)
/-- What runs from an offset reach: the longest way forwards, and each way backwards. -/
inductive Reached (wide:Bool):Regex.Entry→Nat→Nat→Prop
 | start {a n:Nat}:(runCode c.set.regexCode (c.set.string j) b.data m a
   (runFlags (c.set.string j) wide)).lengths.back?=some n→Reached wide ⟨some a,none⟩ m n
 | middle {a a' n k:Nat}:(runCode c.set.regexCode (c.set.string j) b.data m a
   (runFlags (c.set.string j) wide)).lengths.back?=some n→
  k∈(runCode c.set.regexCode (c.set.string j) b.data m a'
   {runFlags (c.set.string j) wide with backwards:=true,exhaustive:=true}).lengths→
  Reached wide ⟨some a,some a'⟩ (m-k) (k+n)

/-- From an atom a match is found in a form, by comparing the text or by running code. -/
inductive Verified (x:AtomItem)(form:Form):Nat→Nat→Prop
 | text {k:UInt8}:(c.set.string j).flags.literal=true→form.Tried k (c.set.string j).flags→
  b.data.Spelled (c.set.string j).flags.noCase m (form.coded k (c.set.string j).text.list)→
  (literalLength (c.set.string j) (Trie.distance x) b.data m).1=form.width*(c.set.string j).text.size→
  Verified x form m (form.width*(c.set.string j).text.size)
 | run {o n:Nat}:(c.set.string j).flags.literal=false→form.Searched (c.set.string j).flags→
  Reached c b j m form.isWide x.entry o n→Verified x form o n
variable {c b j m}
lemma Reached.le {e:Regex.Entry}{n:Nat}(h:Reached c b j m wide e o n):o ≤ m:=by
 cases h with
 | start=>exact le_rfl
 | middle=>exact Nat.sub_le _ _
lemma Verified.le {x:AtomItem}{f:Form}{o n:Nat}(h:Verified c b j m x f o n):o ≤ m:=by
 cases h with
 | text=>exact le_rfl
 | run _ _ hr=>exact hr.le
lemma runHits_gives (e:Regex.Entry)(wide:Bool)(f:Int):
 Gives (runHits c b j e m wide f).1 (runHits c b j e m wide f).2.2
  fun o n w=>Reached c b j m wide e o n∧w=(e.backward.isSome&&wide):=by
 obtain⟨forth,back⟩:=e
 rw[runHits]
 cases forth with
 | none=>exact .none fun _ _ _ _ h=>by cases h.1
 | some a=>
  dsimp only
  generalize hru:runCode c.set.regexCode (c.set.string j) b.data m a _=run
  by_cases hc:(run.code != .success)
  ·rw[if_pos hc]
   refine .none fun hok=>?_
   rw[show run.code=.success from hok]at hc
   cases hc
  rw[if_neg hc,shownLength_getD]
  cases hl:run.lengths.back? with
  | none=>
   refine .none fun _ o n w h=>?_
   cases h.1 with
   | start hn | middle hn=>cases (hru▸hn).symm.trans hl
  | some l=>
   rw[←hru]at hl
   cases back with
   | none=>
    refine⟨fun h hh=>?_,?_⟩
    ·cases mem_singleton.1 hh
     exact⟨.start hl,rfl⟩
    ·rintro - o n w ⟨hr,rfl⟩
     cases hr with
     | start hn=>
      cases hn.symm.trans hl
      exact⟨_,mem_cons_self,rfl,rfl,rfl⟩
   | some _=>
    refine⟨fun h hh=>?_,?_⟩
    ·obtain⟨k,hk,rfl⟩:=mem_map.1 hh
     exact⟨.middle hl (Array.mem_toList_iff.1 hk),rfl⟩
    ·rintro - o n w ⟨hr,rfl⟩
     cases hr with
     | middle hn hk=>
      cases hn.symm.trans hl
      exact⟨_,mem_map_of_mem (Array.mem_toList_iff.2 hk),rfl,rfl,rfl⟩
variable (hform:(c.set.string j).flags.ascii=true∨(c.set.string j).flags.wide=true)
 (hbase:(c.set.string j).flags.base64=false∧(c.set.string j).flags.base64Wide=false)
include hform hbase
lemma patternHits_gives (e:Regex.Entry):
 Gives (patternHits c b j e m).1 (patternHits c b j e m).2 fun o n w=>
  ∃form:Form,form.Searched (c.set.string j).flags ∧ Reached c b j m form.isWide e o n∧
   w=(e.backward.isSome && form.isWide):=by
 simp only[searched_iff hform hbase,or_and_right,exists_or,and_assoc,exists_and_left,exists_eq_left]
 rw[patternHits]
 simp only[hbase,Bool.or_false]
 generalize hfs:(if (c.set.string j).flags.ascii then runHits c b j e m false (-1)
  else (.success,-1,[]))=first
 have hp:Gives first.1 first.2.2 fun o n w=>(c.set.string j).flags.ascii∧
  Reached c b j m false e o n ∧ w=(e.backward.isSome && false):=by
  subst hfs
  split
  ·next ha=>exact (runHits_gives e false _).congr fun _ _ _=>(and_iff_right ha).symm
  ·next ha=>exact .none fun _ _ _ _ h=>ha h.1
 cases hw:(c.set.string j).flags.wide with
 | false=>
  rw[Bool.and_false]
  exact hp.congr fun _ _ _=>(or_iff_left fun h=>Bool.false_ne_true h.1).symm
 | true=>
  rw[Bool.and_true]
  split
  ·next hs=>
   rw[beq_iff_eq.1 hs]at hp
   exact hp.append ((runHits_gives e true first.2.1).congr fun _ _ _=>(and_iff_right rfl).symm)
  ·next hf=>
   exact⟨fun h hh=>.inl (hp.sound h hh),fun hok=>absurd (beq_iff_eq.2 hok) hf⟩
lemma hitsFor_gives (hf:(c.set.string j).flags.fixedOffset=false)
 (hw:(c.set.string j).flags.literal→
  0<(c.set.string j).text.size∧∀h∈(hitsFor c b (j,x) i).2,∃(form:Form)(k:UInt8),
   form.Tried k (c.set.string j).flags∧h.length=form.width*(c.set.string j).text.size∧
   b.data.Spelled (c.set.string j).flags.noCase h.offset (form.coded k (c.set.string j).text.list)):
 Gives (hitsFor c b (j,x) i).1 (hitsFor c b (j,x) i).2 fun o n w=>
  i-Trie.distance x<b.data.size∧∃form,Verified c b j (i-Trie.distance x) x form o n∧
   w=(judgedAs (c.set.string j).flags.literal x form).isWide:=by
 simp only[isWide_judgedAs]
 rw[hitsFor_eq hf]at hw⊢
 by_cases hin:b.data.size ≤ i-Trie.distance x
 ·rw[if_pos hin]
  exact .none fun _ _ _ _ h=>absurd h.1 (not_lt.2 hin)
 rw[if_neg hin]at hw⊢
 simp only[and_iff_right (not_le.1 hin)]
 cases hl:(c.set.string j).flags.literal with
 | false=>
  rw[if_neg nofun]
  refine (patternHits_gives hform hbase x.entry).congr fun o n w=>exists_congr fun form=>?_
  rw[←and_assoc]
  refine and_congr_left fun _=>⟨fun h=>.run hl h.1 h.2,fun h=>?_⟩
  cases h with
  | text h=>cases hl.symm.trans h
  | run _ hsr hr=>exact⟨hsr,hr⟩
 | true=>
  obtain⟨hne,hs⟩:=hw hl
  rw[if_pos hl]at hs
  simp only[if_pos,Bool.true_or,Bool.true_and]
  rw[literalHits]at hs⊢
  have hwi (form:Form):(form.width*(c.set.string j).text.size ==
   2*(c.set.string j).text.size)=form.isWide:=by
   cases form<;>simp[width,isWide]
   omega
  refine⟨fun h hh=>?_,?_⟩
  ·obtain⟨form,k,ht,hle,hs⟩:=hs h hh
   split at hh
   ·cases hh
   cases mem_singleton.1 hh
   dsimp only at hle hs⊢
   refine⟨form,hle ▸ .text hl ht hs hle,?_⟩
   rw[hle,hwi]
  rintro - o n w ⟨form,hv,rfl⟩
  cases hv with
  | run h=>cases hl.symm.trans h
  | text _ _ _ hle=>
   have hp:=Nat.mul_pos form.width_pos hne
   rw[hle,if_neg (by rw[beq_iff_eq];exact hp.ne'),hwi]
   exact⟨_,mem_cons_self,rfl,rfl,rfl⟩
end
end Scan
namespace Rule
open Compiler
/-- From an atom of a string a match is found in a form. -/
def Found (s:SearchSetting)(b:Block)(lists:List (Nat×List AtomItem))(j:Nat)(x:AtomItem)
 (form:PatternScan.Form)(o n:Nat):Prop:=
 (j,x)∈Trie.registered lists∧∃i,Ends b x i∧i-Trie.distance x<b.data.size∧
  Verified s b j (i-Trie.distance x) x form o n
lemma few_of_found {s:SearchSetting}{b:Block}(hda:b.data.size<stringMatches)
 (lists:List (Nat×List AtomItem))(j:Nat):Few fun o=>∃x form n,Found s b lists j x form o n:=by
 refine⟨Finset.range b.data.size,by rwa[Finset.card_range],?_⟩
 rintro o ⟨x,form,n,-,i,-,hin,hv⟩
 exact Finset.mem_range.2 (hv.le.trans_lt hin)
structure Modifier.Words (m:Modifier):Prop where
 word:m.flags.fullWord=true
 literal:m.flags.literal=false
 form:m.flags.ascii=true∨m.flags.wide=true
 keyed:m.flags.xor=true→m.flags.noCase=false
 base:m.flags.base64=false∧m.flags.base64Wide=false
 fits:m.flags.fitsInAtom=false

/-- A string in one part, which is compared with a text that is not empty or searched by running code. -/
structure Whole (C:Compiler)(lists:List (Nat×List AtomItem))(j:Nat)(m:Modifier)
 (text:Option Bytes)(p:Option Regex.Pattern):Prop where
 sound:C.Sound lists
 carries:Carries C lists j m text p
 words:m.Words
 chain:(C.string j).flags.chainPart=false
 next:j+1<C.strings.size→(C.string (j+1)).link=none
 literal:(C.string j).flags.literal=true→∃shown,literalOf text p=some shown∧0<shown.size
lemma declareString_whole {c c1 C:Compiler}(hc:c.Started){n:String}{m:Modifier}
 {text:Bytes}(hde:(declareString n m text).run c=(.ok (),c1))(hl:c1.Reaches C)
 {regexp ascii noCase xor dotAll hidden:Bool}(hm:m.flags={ StringFlags.none with
  regexp:=regexp,ascii:=ascii,wide:=wide,noCase:=noCase,xor:=xor,dotAll:=dotAll
  hidden:=hidden,fullWord:=true })
 (hwh:∀r,regexp→Regex.read text c.setting.strict=.ok r → r.pattern.split.2=none):
 ∃lists m text p,Whole C lists c.strings.size m text p:=by
 have hw:(m.declared n).Words:=by
  obtain⟨-,hco,-⟩:=declareString_ok hde
  constructor
  case keyed=>
   intro hx
   have hk:=keyed_of_conflict hco
   rwa[hx]at hk
  all_goals simp only[Modifier.declared,hm]
  case form=>
   cases wide
   ·exact .inl (Bool.or_true _)
   ·exact .inr rfl
  case base=>exact⟨rfl,rfl⟩
  all_goals rfl
 have hch:m.flags.chainPart=false:=by rw[hm];rfl
 obtain⟨lists,hs⟩:=hc.sound
 cases hrg:regexp with
 | false=>
  subst hrg
  obtain⟨hne,-,lists1,he,hsi,hca,hp⟩:=declareString_text hde (by rw[hm];rfl) hs
  obtain⟨lists2,hs,hca,hp',hn⟩:=hca.later he.sound hsi hl
  exact⟨lists2,_,_,_,hs,hca,hw,(hp'.trans hp).trans hch,hn,fun _=>⟨text,rfl,hne⟩⟩
 | true=>
  subst hrg
  obtain⟨p,-,hrd,-⟩:=declareString_chains hde (by rw[hm];rfl) hs
  have hre:=hrd
  rw[Modifier.Reads,hm]at hre
  obtain⟨r,hre,rfl⟩:=hre
  obtain⟨lists,hs,hca,hp,hn⟩:=declareString_carries hc hde hl
   (by rw[hm];rfl) hrd (hwh r rfl hre)
  refine⟨lists,_,_,_,hs,hca,⟨hw.word,hw.literal,hw.form,hw.keyed,hw.base,hw.fits⟩,hp.trans hch,hn,fun hli=>?_⟩
  obtain⟨sh,hsh⟩:=hca.exists_literal hw.literal hli
  refine⟨sh,hsh,Regex.Node.literal_nonempty (fun hro=>?_) hsh⟩
  have hr:=Regex.read_readable hre
  rw[hro]at hr
  exact hr.1 rfl
section
variable {C:Compiler}{lists:List (Nat×List AtomItem)}{j:Nat}{m:Modifier}
 {text:Option Bytes}{p:Option Regex.Pattern}(h:Whole C lists j m text p){s:SearchSetting}
 (hset:s.set=C.ruleSet)
include h hset
lemma Whole.gives (hsh:C.Short)(hf:(C.string j).flags.fixedOffset=false){b:Block}
 (hx:(j,x)∈Trie.registered lists)(he:Ends b x i):
 Gives (hitsFor s b (j,x) i).1 (hitsFor s b (j,x) i).2 fun o n w=>
  i-Trie.distance x<b.data.size∧∃form,Verified s b j (i-Trie.distance x) x form o n∧
   w=(judgedAs (C.string j).flags.literal x form).isWide:=by
 have hst:s.set.string j=C.string j:=by rw[hset];rfl
 have hfl:=h.carries
 rw[←hst]at hf⊢
 refine hitsFor_gives ?_ ?_ hf fun hl=>?_
 ·rw[hst,hfl.flag_eq StringFlags.ascii,hfl.flag_eq StringFlags.wide]
  exact h.words.form
 ·rw[hst,hfl.flag_eq StringFlags.base64,hfl.flag_eq StringFlags.base64Wide]
  exact h.words.base
 obtain⟨shown,hsho,hne⟩:=h.literal (hst▸hl)
 have hw:Words s b lists j m shown:=h.carries.words h.sound hsh hset h.words.form
  h.words.keyed h.words.base h.words.fits hsho hne (hst▸hf)
 rw[hw.held]
 refine⟨hne,fun hit hh=>?_⟩
 obtain⟨form,k,ht,-,hle,hs⟩:=hw.sound x hx i he hit hh
 rw[←hfl.flag_eq (Tried form k),←hst]at ht
 rw[←hfl.flag_eq StringFlags.noCase,←hst]at hs
 exact⟨form,k,ht,hle,hs⟩
lemma Whole.alone_iff {b:Block}{hit:Hit}(hl:Led s b lists j hit){f:PatternScan.Form}
 (hw:hit.wide=f.isWide):hit.Alone s b↔b.data.Delimited f hit.offset hit.length:=by
 obtain⟨x,-,i,-,hh⟩:=hl
 obtain⟨hs,ho⟩:=(hits_inside _ _).2 hit hh
 have hwo:(s.set.string hit.string).flags.fullWord:=by
  rw[hs,hset]
  exact (h.carries.flag_eq StringFlags.fullWord).trans h.words.word
 rw[Hit.Alone,forall_prop_of_true hwo,hw,standsAlone_iff (le_of_lt ho)]
end
/-- A string that asks for full words is recorded at each offset at which it is found with no letter or digit beside
it, and at no other. Neighbours are read in the form of the match, unless it was found by running code from the start
only. -/
theorem search_delimited {c c₁ C:Compiler} (hc:c.Started) {name:String} {m:Modifier}
 {text:Bytes} (hdeclare:(declareString name m text).run c = (.ok (),c₁)) (hlater:c₁.Reaches C)
 {regexp ascii wide noCase xor dotAll hidden:Bool} (hm:m.flags = { StringFlags.none with
  regexp := regexp,ascii := ascii,wide := wide,noCase := noCase,xor := xor,dotAll := dotAll
  hidden := hidden,fullWord := true })
 (hwhole:∀ r,regexp=true → Regex.read text c.setting.strict = .ok r → r.pattern.split.2=none)
 (hfixed:(C.string c.strings.size).flags.fixedOffset = false) (hshort:C.Short)
 {s:SearchSetting} {b:Block} {p p':Progress} (hsearch:Search C s b c.strings.size p p') :
 let delimited x form:=b.data.Delimited (Scan.judgedAs (C.string c.strings.size).flags.literal x form)
 ∃ lists,C.Sound lists ∧ (Few (fun o=>∃ x form n,Found s b lists c.strings.size x form o n) →
  (∀ o,(p'.findings.of c.strings.size).Has o ↔
   ∃ x form n,Found s b lists c.strings.size x form o n ∧ delimited x form o n) ∧
  ∀ m∈(p'.findings.of c.strings.size).toList,∃ x form,Found s b lists c.strings.size x form m.offset m.length ∧
    delimited x form m.offset m.length):=by
 intro delimited
 obtain⟨lists,m,text,pattern,h⟩:=declareString_whole hc hdeclare hlater hm hwhole
 refine⟨lists,h.sound,fun⟨offsets,hcard,hmem⟩=>?_⟩
 have hled:∀ hit,Led s b lists c.strings.size hit→∃x form,
  Found s b lists c.strings.size x form hit.offset hit.length∧
   hit.wide=(Scan.judgedAs (C.string c.strings.size).flags.literal x form).isWide:=by
  rintro hit ⟨x,hx,i,hends,hh⟩
  obtain⟨hin,form,hver,hwide⟩:=(h.gives hsearch.set hshort hfixed hx hends).sound hit hh
  exact⟨x,form,⟨hx,i,hends,hin,hver⟩,hwide⟩
 obtain⟨hcodes,hrecs⟩:=search_records h.sound hshort hsearch.set hsearch.fast h.carries.lt
  h.chain h.next hsearch.even hcard (fun hit hh=>by
   obtain⟨x,form,hfnd,-⟩:=hled hit hh
   exact hmem _ ⟨x,form,_,hfnd⟩) hsearch.sized hsearch.empty hsearch.loud hsearch.search
 refine⟨fun o=>?_,fun y hy=>?_⟩
 ·rw[hrecs.has,hsearch.empty,or_iff_left (by rintro⟨y,hy,-⟩;cases hy)]
  constructor
  ·rintro⟨hit,⟨hh,halone⟩,rfl⟩
   obtain⟨x,form,hfnd,hwide⟩:=hled hit hh
   exact⟨x,form,_,hfnd,(h.alone_iff hsearch.set hh hwide).mp halone⟩
  ·rintro⟨x,form,n,⟨hx,i,hends,hin,hver⟩,hdelimited⟩
   obtain⟨hit,hh,rfl,rfl,hwide⟩:=(h.gives hsearch.set hshort hfixed hx hends).complete
    (hcodes x hx i hends) _ _ _ ⟨hin,form,hver,rfl⟩
   have hh:Led s b lists c.strings.size hit:=⟨x,hx,i,hends,hh⟩
   exact⟨hit,⟨hh,(h.alone_iff hsearch.set hh hwide).mpr hdelimited⟩,rfl⟩
 ·rcases hrecs.mem y hy with⟨hit,⟨hh,halone⟩,hoff,hlength⟩|hy
  ·obtain⟨x,form,hfnd,hwide⟩:=hled hit hh
   rw[←hoff,←hlength]
   exact⟨x,form,hfnd,(h.alone_iff hsearch.set hh hwide).mp halone⟩
  ·rw[hsearch.empty]at hy
   cases hy
def wideWord:Modifier where
 flags:={StringFlags.none with regexp:=true,wide:=true,fullWord:=true}
theorem search_delimited_repeated :
 let text:Bytes:=⟨#[97,98,43]⟩
 let data:Bytes:=⟨#[48,97,0,98,0,46,0,97,0,98,0,99,0]⟩
 let C:=declaredAs wideWord text
 let x:=Scan.Scanner.create C.ruleSet
 let r:=foundIn C data
 r.1=.success∧(r.2.findings.of 0).toList.map (·.offset)=[1]∧∃ lists,C.Sound lists∧
  ∀ o,(r.2.findings.of 0).Has o↔∃ y form n,Found (x.searchSetting {} default) ⟨0,data⟩ lists 0 y form o n∧
    data.Delimited (Scan.judgedAs (C.string 0).flags.literal y form) o n:=by
 intro text data C x r
 have hcode:r.1=.success:=by decide +kernel
 have hread:(Regex.read text ruleOpened.setting.strict).map (·.pattern.split.2.isNone)=.ok true:=by
  decide +kernel
 obtain⟨lists,hs,h⟩:=search_delimited (C:=C) started_ruleOpened (run_eq_ok (by decide +kernel))
  (.single (.action ..)) rfl (fun y _ hy=>by
   rw[hy]at hread
   exact Option.isNone_iff_eq_none.mp (Except.ok.inj hread)) (by decide +kernel)
  (short_of_one (by decide +kernel) (by decide +kernel)) (search_create C (by decide) 0 hcode)
 have hfst:ruleOpened.strings.size=0:=rfl
 rw[hfst]at h
 exact⟨hcode,by decide +kernel,lists,hs,(h (few_of_found (by decide) lists 0)).1⟩

/-- A wide digit is recorded behind a wide letter. -/
theorem search_delimited_digit :
 let text:Bytes:=⟨#[92,100]⟩
 let data:Bytes:=⟨#[97,0,53,0]⟩
 let r:=foundIn (declaredAs wideWord text) data
 r.1=.success∧(r.2.findings.of 0).toList.map (fun y=>(y.offset,y.length))=[(2,2)]∧
  ¬ data.Delimited .wide 2 2:=
 ⟨by decide +kernel,by decide +kernel,fun h=>h.1 0 rfl ⟨by decide,by decide,by decide⟩⟩
end Rule
end PatternScan
