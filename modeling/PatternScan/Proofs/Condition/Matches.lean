import PatternScan.Proofs.Condition.Meaning
import PatternScan.Proofs.Regex.Bounds
import PatternScan.Proofs.Regex.Middle
/-! The `matches` operator looks for a piece of a text at all places but the end of the text. -/
open Option
namespace PatternScan
open Regex.Input Regex Limits
namespace Regex
open Machine
section
variable {f:RunFlags}{s:Bytes}
lemma reach_whole (hf:f.backwards=false)(hw:f.wide=false)(hs:s.size≤regexInput):
 reach f ⟨s,0⟩=s.size:=by
 have hwi:width f=1:=by rw[width,hw];rfl
 rw[reach,hf,hwi]
 simp only[Bool.false_eq_true,if_false]
 omega
lemma place_whole (hf:f.backwards=false)(hw:f.wide=false)(i:Nat):place f ⟨s,0⟩ i=i:=by
 rw[place,hf,width,hw]
 simp

/-- A search finds the pattern just where it starts before the end of the text, or in an empty text. -/
lemma Pattern.Stands.search_iff {p:Pattern}{a:Nat}{c:Code}(hp:p.Stands false a c)
 (hfa:p.root.faithful false)(hor:p.root.InOrder)(hf:f.backwards=false)
 (hw:f.wide=false)(hse:f.search)(hsi:s.size≤regexInput)(hfi:Firm c f ⟨s,0⟩ a)
 (hok:(run c a f ⟨s,0⟩).result=.ok ()):(run c a f ⟨s,0⟩).lengths≠#[]↔
  ∃i j,i≤j∧j ≤ s.size∧(i<s.size∨s.size=0)∧
   p.root.Occurs ⟨s,false,⟨f.ignoreCase,f.dotAll⟩⟩ i j:=by
 have hr:reach f ⟨s,0⟩=s.size:=reach_whole hf hw hsi
 have hwi:width f=1:=by rw[width,hw];rfl
 have hm:=@Node.faithful_mirrors f ⟨s,0⟩ zero_le p.root (hf▸hfa) hor
 have hst:=hp.steady (p.root.faithful_steady false hfa).2 (.start (v:=look f ⟨s,0⟩) p.root a) hfi
 have ht:text f ⟨s,0⟩=⟨s,false,⟨f.ignoreCase,f.dotAll⟩⟩:=by rw[text,hw]
 have ha (T:Nat→Nat→Prop):along f T=T:=by rw[along,hf];rfl
 rw[ha,ht,hf]at hm
 rw[hp.run_ne_empty_iff (.start p.root a) hst hok]
 constructor
 ·rintro⟨i,j,hi,hs⟩
  rw[Starts,hwi]at hi
  obtain⟨hj,ho⟩:=hm.traces i j (by rw[hwi];omega) hs
  rw[hwi]at hj
  have hon:=hm.onward _ _ ho
  rw[place_whole hf hw,place_whole hf hw]at ho hon
  rw[hf]at hon
  exact⟨i,j,hon,by omega,by omega,ho⟩
 rintro⟨i,j,hij,hj,hi,ho⟩
 have hn:Near f ⟨s,0⟩ j:=by
  rw[Near,hf,hr]
  simpa using hj
 obtain⟨k,-,-,hs⟩:=hm.covers i j (by rw[hwi];omega) hn (by rwa[place_whole hf hw])
 refine⟨i,k,?_,hs⟩
 rw[Starts,hwi]
 exact (Nat.eq_zero_or_pos i).imp_right fun _=>⟨hse,by omega⟩
end
end Regex
namespace Condition
variable {σ:Type}{e:Environment σ}{m:Matcher}{s:Bytes}{c:Cell}
lemma matchResult_some (h:matchResult e (.text s) (.matcher m)=some c):
 let run:=Regex.run e.set.regexCode m.address ⟨false,false,false,m.noCase,true,m.dotAll⟩ ⟨s,0⟩
 run.result=.ok ()∧c=.ofBool !run.lengths.isEmpty:=by
 have hde:((Cell.text s).isUndefined||(Cell.matcher m).isUndefined)=false:=rfl
 rw[matchResult,if_neg (by rw[hde];decide)]at h
 dsimp only at h
 split at h
 ·next hc=>exact⟨result_of_code (beq_iff_eq.1 hc),(some.inj h).symm⟩
 ·cases h

/-- The operator holds just if the pattern matches a piece that starts before the end of the text, or the empty text,
if the pattern has no counted loop and no body of a `+` opens with an option. -/
theorem matches_iff_occurs {src:Bytes} {strict:Bool} {r:Reading} (hread:Regex.read src strict = .ok r)
 {code code':Code} {entries entries':Array Entry}
 (hemit:r.pattern.emit false code entries = .ok (code',entries')) (haddress:m.address=code.size)
 (hcode:∀ x < code'.size,e.set.regexCode.fetch x = code'.fetch x)
 (hfaithful:r.pattern.root.faithful false = true) (hsize:s.size ≤ Limits.regexInput)
 (hfirm:Firm e.set.regexCode ⟨false,false,false,m.noCase,true,m.dotAll⟩ ⟨s,0⟩ m.address)
 {x:Expression} {matched:Array Bool} {frame h:Nat} {f f₁ f':Frame σ}
 (hx:x.eval e matched frame h f = some (.text s,f₁))
 (heval:(Expression.textMatches x (.matcher m)).eval e matched frame h f = some (c,f')) :
 c.isTrue=true ↔ ∃ i j,i ≤ j ∧ j ≤ s.size ∧ (i < s.size ∨ s.size=0) ∧
  r.pattern.root.Occurs ⟨s,false,⟨m.noCase,m.dotAll⟩⟩ i j := by
 simp only[Expression.eval]at heval
 obtain⟨a,g,ha,heval⟩:=bind_some heval
 obtain⟨rfl,rfl⟩:=Prod.mk.inj (some.inj (hx.symm.trans ha))
 obtain⟨b,g,hb,heval⟩:=bind_some heval
 obtain⟨_,hb,-⟩:=apply_value hb
 obtain⟨rfl,-⟩:=Prod.mk.inj (some.inj hb)
 obtain⟨_,hres,-⟩:=apply_value heval
 obtain⟨_,hval,hpair⟩:=map_eq_some_iff.1
  (show (matchResult e (.text s) (.matcher m)).map (·,g.world)=_ from hres)
 cases hpair
 obtain⟨hok,rfl⟩:=matchResult_some hval
 obtain⟨hstd,hend,-,-⟩:=Regex.Pattern.emit_stands hemit
 have hstd:=hstd.congr fun x _ hx=>hcode x (by omega)
 rw[haddress]at hok hfirm⊢
 have hiff:=hstd.search_iff hfaithful (Regex.Node.Readable.inOrder _ (Regex.read_readable hread)) rfl rfl rfl hsize
  hfirm hok
 rw[←hiff]
 cases hempty:(Regex.run e.set.regexCode code.size _ ⟨s,0⟩).lengths.isEmpty with
 | true=>exact iff_of_false (by decide) (not_not.2 (Array.isEmpty_iff.1 hempty))
 | false=>exact iff_of_true (by decide) fun h=>by rw[h]at hempty;cases hempty
def searcher (p:Pattern):Environment Unit:=
 let e:=Environment.sole (.integer 1) oneFound
 {e with set:={e.set with regexCode:=p.code false}}
def asked (p:Pattern)(s:Bytes):Option Bool:=
 ((Expression.textMatches (.text s) (.matcher ⟨0,false,false⟩)).eval (searcher p) #[] 0 0 ⟨9,#[],()⟩).map (·.1.isTrue)
def endings:Pattern:=
 ⟨.cat [.plus true (.cat [.literal 97 true,.range 0 1 true (.literal 98 true)]),.stop],⟨false,false,true,false⟩⟩
theorem matches_iff_occurs_ending : asked endings ⟨#[120,97,98,97]⟩=some true∧
 ∃ i j,i ≤ j∧j ≤ 4∧(i<4 ∨ 4=0)∧
  endings.root.Occurs ⟨⟨#[120,97,98,97]⟩,false,⟨false,false⟩⟩ i j:=by
 have hread:Regex.read ⟨#[40,97,98,63,41,43,36]⟩ false=.ok ⟨endings,false⟩:=by with_unfolding_all rfl
 have hasked:asked endings ⟨#[120,97,98,97]⟩=some true:=by decide +kernel
 obtain⟨⟨c,f'⟩,heval,htrue⟩:=map_eq_some_iff.1 hasked
 have hemit:endings.emit false .empty #[]=.ok (endings.code false,#[]):=rfl
 exact⟨hasked,(matches_iff_occurs (s:=⟨#[120,97,98,97]⟩) hread hemit rfl (fun _ _=>rfl) (by decide)
  (by decide) (Code.firm_of_still (by decide)).run rfl heval).1 htrue⟩
def atEnd:Pattern:=⟨.cat [.stop],.none⟩
def bothEnds:Pattern:=
 ⟨.cat [.start,.plus true (.cat [.range 0 1 true (.literal 97 true),.literal 98 true]),.stop],⟨false,false,true,false⟩⟩

/-- The end of a text is not looked at, and a second turn of a loop cannot leave out the option it opens
with. -/
theorem matches_missed :
 (asked atEnd ⟨#[97]⟩=some false∧atEnd.root.Occurs ⟨⟨#[97]⟩,false,⟨false,false⟩⟩ 1 1)∧
 asked bothEnds ⟨#[97,98,98]⟩=some false∧
  bothEnds.root.Occurs ⟨⟨#[97,98,98]⟩,false,⟨false,false⟩⟩ 0 3:=by
 refine⟨⟨by decide +kernel,1,⟨rfl,rfl⟩,rfl⟩,by decide +kernel,0,⟨rfl,rfl⟩,3,⟨2,?_,.single ?_⟩,3,⟨rfl,rfl⟩,rfl⟩
 ·exact⟨1,⟨1,by decide,by decide,1,⟨rfl,⟨by decide,nofun⟩,by decide⟩,rfl⟩,2,⟨rfl,⟨by decide,nofun⟩,by decide⟩,rfl⟩
 ·exact⟨2,⟨0,by decide,by decide,rfl⟩,3,⟨rfl,⟨by decide,nofun⟩,by decide⟩,rfl⟩
end Condition
end PatternScan