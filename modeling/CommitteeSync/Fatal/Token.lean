/-
  CommitteeSync.Fatal.Token — cancellation tokens.

  A root token stands alone; a child token belongs to the root of its number and counts as
  cancelled as soon as that root is. Cancelling is for good.
-/

namespace CommitteeSync

inductive Token where
  | root (n : Nat)
  | child (n : Nat)
  deriving DecidableEq, Repr

/-- The token with which this one is cancelled too. -/
def Token.parent? : Token → Option Token
  | .root _ => none
  | .child n => some (.root n)

/-- The tokens that were cancelled themselves. -/
structure Tokens where
  fired : List Token
  deriving DecidableEq, Repr

namespace Tokens

def none : Tokens := ⟨[]⟩

def cancel (ts : Tokens) (t : Token) : Tokens := ⟨t :: ts.fired⟩

def isCancelled (ts : Tokens) : Token → Bool
  | .root n => ts.fired.contains (.root n)
  | .child n => ts.fired.contains (.child n) || ts.fired.contains (.root n)

theorem isCancelled_iff {ts : Tokens} {t : Token} :
    ts.isCancelled t ↔ ∃ u ∈ ts.fired, t = u ∨ t.parent? = some u := by
  cases t with
  | root n => simp [isCancelled, Token.parent?]
  | child n =>
    simp only [isCancelled, Token.parent?, Bool.or_eq_true, List.contains_iff_mem, Option.some.injEq]
    constructor
    · rintro (h | h)
      · exact ⟨_, h, Or.inl rfl⟩
      · exact ⟨_, h, Or.inr rfl⟩
    · rintro ⟨u, hu, rfl | rfl⟩
      · exact Or.inl hu
      · exact Or.inr hu

/-- A token stays cancelled when others are cancelled as well. -/
theorem isCancelled_mono {ts ts' : Tokens} {t : Token} (hf : ts.fired ⊆ ts'.fired) (h : ts.isCancelled t) :
    ts'.isCancelled t := by
  obtain ⟨u, hu, htu⟩ := isCancelled_iff.1 h
  exact isCancelled_iff.2 ⟨u, hf hu, htu⟩

end Tokens

end CommitteeSync
