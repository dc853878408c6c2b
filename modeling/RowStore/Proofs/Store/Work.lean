import RowStore.Store.Keys

/-!
# Running work

What a piece of work gives and leaves behind, one combinator at a time.
-/

namespace RowStore

namespace Work

variable {σ α β : Type}

theorem bind_apply (w : Work σ α) (f : α → Work σ β) (s : Session σ) :
    (w >>= f) s = match w s with
      | (.ok a, s') => f a s'
      | (.error fault, s') => (.error fault, s') := by
  simp only [bind, ExceptT.bind, ExceptT.mk, StateT.bind]
  cases w s with
  | mk result s' => cases result <;> rfl

theorem bind_ok {w : Work σ α} {s s' : Session σ} {a : α} (f : α → Work σ β)
    (h : w s = (.ok a, s')) : (w >>= f) s = f a s' := by
  rw [bind_apply, h]

theorem bind_error {w : Work σ α} {s s' : Session σ} {fault : Fault} (f : α → Work σ β)
    (h : w s = (.error fault, s')) : (w >>= f) s = (.error fault, s') := by
  rw [bind_apply, h]

theorem pure_apply (a : α) (s : Session σ) : (pure a : Work σ α) s = (.ok a, s) := rfl

theorem throw_apply (fault : Fault) (s : Session σ) :
    (throw fault : Work σ α) s = (.error fault, s) := rfl

theorem ofExcept_apply (result : Except Fault α) (s : Session σ) :
    ofExcept result s = (result, s) := rfl

theorem attempt_apply (w : Work σ α) (s : Session σ) :
    attempt w s = (.ok (w s).1, (w s).2) := rfl

theorem note_apply (e : Entry) (s : Session σ) :
    note e s = (.ok (), ⟨s.server, s.journal ++ [e]⟩) := rfl

theorem noteAll_apply (entries : List Entry) (s : Session σ) :
    noteAll entries s = (.ok (), ⟨s.server, s.journal ++ entries⟩) := rfl

theorem bind_ofExcept_ok {result : Except Fault α} {a : α} (f : α → Work σ β)
    (h : result = .ok a) : (ofExcept result >>= f) = f a := by
  funext s
  rw [bind_ok f (ofExcept_apply _ s |>.trans (by rw [h]))]

theorem bind_ofExcept_error {result : Except Fault α} {fault : Fault} (f : α → Work σ β)
    (h : result = .error fault) : (ofExcept result >>= f) = throw fault := by
  funext s
  rw [bind_error f (ofExcept_apply _ s |>.trans (by rw [h])), throw_apply]

end Work

end RowStore
