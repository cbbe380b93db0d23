import CarSalePro.Interleave.Triple

namespace Interleave

variable {L S : Type} {R : S → Type} {σ ε χ α β : Type}

/-- The program, alone and with its environment at rest, can end with this answer in this state:
each step meets some fate that `ok` admits. -/
def Prog.Ends (M : Machine L S R σ ε χ) (ok : Label L S → χ → σ → Prop) :
    Prog L S R σ ε α → σ → Except ε α → σ → Prop
  | .ret a, w, r, w' => r = .ok a ∧ w' = w
  | .raise e, w, r, w' => r = .error e ∧ w' = w
  | .ask l f k, w, r, w' => ∃ c, ok (.ask l) c w ∧ (k (M.answer l f c w)).Ends M ok w r w'
  | .call s k, w, r, w' =>
    ∃ c, ok (.call s) c w ∧ (k (M.exec s c w).1).Ends M ok (M.exec s c w).2 r w'

namespace Prog

variable {M : Machine L S R σ ε χ} {ok ok' : Label L S → χ → σ → Prop} {p : Prog L S R σ ε α}
  {w w' : σ} {r : Except ε α}

/-- The run in which every step meets one fate. -/
theorem ends_alone {c : χ} (h : ∀ l w, ok l c w) (p : Prog L S R σ ε α) (w : σ) :
    p.Ends M ok w (p.alone M c w).1 (p.alone M c w).2 := by
  induction p generalizing w with
  | ret a => exact ⟨rfl, rfl⟩
  | raise e => exact ⟨rfl, rfl⟩
  | ask l f k ih => exact ⟨c, h _ w, ih _ w⟩
  | call s k ih => exact ⟨c, h _ w, ih _ _⟩

end Prog

/-- A triple speaks of every such end. -/
theorem Triple.ends {M : Machine L S R σ ε χ} {ok : Label L S → χ → σ → Prop} {P : σ → Prop}
    {p : Prog L S R σ ε α} {Q : α → σ → Prop} {X : ε → σ → Prop} {w w' : σ} {r : Except ε α}
    (h : Triple M ok P p Q X) (hw : P w) (he : p.Ends M ok w r w') :
    Discipline.onAnswer Q X r w' := by
  have hf := h P fun _ hv => hv
  clear h
  induction p generalizing P w with
  | ret a =>
    obtain ⟨rfl, rfl⟩ := he
    exact hf _ hw
  | raise e =>
    obtain ⟨rfl, rfl⟩ := he
    exact hf _ hw
  | ask l f k ih =>
    obtain ⟨c, hok, he⟩ := he
    obtain ⟨P', hm, hk⟩ := hf c w hw
    exact ih _ (hm hok) he hk
  | call s k ih =>
    obtain ⟨c, hok, he⟩ := he
    obtain ⟨P', hm, hk⟩ := hf c w hw
    exact ih _ (hm hok) he hk

end Interleave
