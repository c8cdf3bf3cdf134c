import Anunix.Lib.Fallible

/-!
# Two runs side by side

A two-run property compares what a program does from two related states. `Alike R x s y t` says that
`x` from `s` and `y` from `t` hand back the same to their callers and leave states that `R` relates;
there is one rule per program former.
-/

namespace Fallible

universe u

variable {ε σ α β : Type u} {R : σ → σ → Prop} {s t : σ} {f g : α → EStateM ε σ β}
  {x y : EStateM ε σ α}

def Alike (R : σ → σ → Prop) (x : EStateM ε σ α) (s : σ) (y : EStateM ε σ α) (t : σ) : Prop :=
  outcome x s = outcome y t ∧ R (final x s) (final y t)

lemma Alike.pure (a : α) (h : R s t) : Alike R (Pure.pure a : EStateM ε σ α) s (Pure.pure a) t :=
  ⟨rfl, h⟩

lemma Alike.modify {f g : σ → σ} (h : R (f s) (g t)) :
    Alike R (modify f : EStateM ε σ PUnit) s (modify g) t :=
  ⟨rfl, h⟩

lemma Alike.get_bind {f g : σ → EStateM ε σ β} (h : Alike R (f s) s (g t) t) :
    Alike R (MonadState.get >>= f) s (MonadState.get >>= g) t :=
  h

lemma Alike.bind (hx : Alike R x s y t) (hf : ∀ a s' t', R s' t' → Alike R (f a) s' (g a) t') :
    Alike R (x >>= f) s (y >>= g) t := by
  obtain ⟨hout, hfin⟩ := hx
  cases hs : x s with
  | ok a s' =>
    cases ht : y t with
    | ok b t' =>
      simp only [outcome, final, hs, ht, Except.ok.injEq] at hout hfin
      have h := hf a s' t' hfin
      subst hout
      simpa [Alike, outcome, final, Bind.bind, EStateM.bind, hs, ht] using h
    | error e t' =>
      simp only [outcome, hs, ht] at hout
      cases hout
  | error e s' =>
    cases ht : y t with
    | ok b t' =>
      simp only [outcome, hs, ht] at hout
      cases hout
    | error e' t' =>
      simp only [outcome, hs, ht, Except.error.injEq] at hout
      subst hout
      simpa [Alike, outcome, final, Bind.bind, EStateM.bind, hs, ht] using hfin

lemma Alike.map (h : Alike R x s y t) (f : α → β) : Alike R (f <$> x) s (f <$> y) t := by
  exact .bind h fun a _ _ => .pure (f a)

lemma Alike.failIf_bind {c d : Bool} {e : ε} {f g : PUnit → EStateM ε σ β} (h : R s t) (hcd : c = d)
    (hf : c = false → Alike R (f ⟨⟩) s (g ⟨⟩) t) :
    Alike R (failIf c e >>= f) s (failIf d e >>= g) t := by
  subst hcd
  cases c with
  | false => exact hf rfl
  | true => exact ⟨rfl, h⟩

lemma Alike.orThrow_bind {P : α → α → Prop} {o p : Option α} {e : ε} (h : R s t)
    (hop : Option.Rel P o p)
    (hf : ∀ a b, o = some a → p = some b → P a b → Alike R (f a) s (g b) t) :
    Alike R (orThrow o e >>= f) s (orThrow p e >>= g) t := by
  cases hop with
  | none => exact ⟨rfl, h⟩
  | some hab => exact hf _ _ rfl rfl hab

end Fallible
