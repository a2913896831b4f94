import Mathlib
/-! What holds of the value of a computation, if it has one. -/
namespace PatternScan
variable {p:Prop}{ε α β:Type}{P:α→Prop}{x:Except ε α}
lemma bind_ne_error {f:α→Except ε β}{e:ε}(hx:x≠.error e)(hf:∀a,f a≠.error e):(x >>= f)≠.error e:=by
 cases x with
 | error e'=>simpa[bind,Except.bind] using hx
 | ok a=>exact hf a
lemma bind_eq_ok {f:α→Except ε β}{b:β}:(x >>= f)=.ok b↔∃a,x=.ok a∧f a=.ok b:=by
 cases x with
 | error e=>simp[bind,Except.bind]
 | ok a=>simp[bind,Except.bind]
lemma eq_ok_get (h:x.toOption.isSome):x=.ok (x.toOption.get h):=by
 cases x with
 | error e=>cases h
 | ok a=>rfl
def Yields (P:α→Prop)(x:Except ε α):Prop:=∀a,x=.ok a→P a
lemma yields_ok {a:α}(h:P a):Yields P (.ok a:Except ε α):=by
 rintro b ⟨⟩
 exact h
lemma yields_error (P:α→Prop)(e:ε):Yields P (.error e):=nofun
lemma Yields.cases [Decidable p]{y:Except ε α}(hx:p→Yields P x)
 (hy:¬p→Yields P y):Yields P (if p then x else y):=by
 split
 ·next h=>exact hx h
 ·next h=>exact hy h
lemma Yields.ite [Decidable p]{y:Except ε α}(hx:Yields P x)(hy:Yields P y):
 Yields P (if p then x else y):=.cases (fun _=>hx) fun _=>hy
lemma Yields.bind {P:β→Prop}{f:α→Except ε β}(h:∀a,x=.ok a→Yields P (f a)):Yields P (x >>= f):=by
 intro b hb
 obtain⟨a,ha,hb⟩:=bind_eq_ok.1 hb
 exact h a ha b hb
end PatternScan
