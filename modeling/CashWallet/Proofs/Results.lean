import Mathlib.Data.List.Forall2

/-!
# Computations that may fail, over lists

A computation for each entry of a list succeeds as a whole exactly if each of them does, and its
faults are of the sort that those of the entries are of.
-/

namespace CashWallet.Results

variable {ε α β : Type}

theorem bind_eq_ok_iff {x : Except ε α} {f : α → Except ε β} {b : β} :
    (x >>= f) = .ok b ↔ ∃ a, x = .ok a ∧ f a = .ok b := by
  cases x with
  | error e => simp [bind, Except.bind]
  | ok a => simp [bind, Except.bind]

theorem bind_eq_error_iff {x : Except ε α} {f : α → Except ε β} {e : ε} :
    (x >>= f) = .error e ↔ x = .error e ∨ ∃ a, x = .ok a ∧ f a = .error e := by
  cases x with
  | error e => simp [bind, Except.bind]
  | ok a => simp [bind, Except.bind]

theorem mapError_eq_ok_iff {ε' : Type} {x : Except ε α} {f : ε → ε'} {a : α} :
    x.mapError f = .ok a ↔ x = .ok a := by
  cases x <;> simp [Except.mapError]

theorem map_eq_ok_iff {x : Except ε α} {f : α → β} {b : β} :
    x.map f = .ok b ↔ ∃ a, x = .ok a ∧ f a = b := by
  cases x <;> simp [Except.map]

theorem eq_ok_of_toOption {x : Except ε α} {a : α} (h : x.toOption = some a) : x = .ok a := by
  cases x <;> cases h
  rfl

theorem ok_eq_ok_iff {a b : α} : (Except.ok a : Except ε α) = .ok b ↔ b = a := by
  rw [Except.ok.injEq, eq_comm]

theorem ok_bind (a : α) (f : α → Except ε β) : (Except.ok a >>= f) = f a := rfl

theorem mapError_ok_bind {ε' : Type} (f : ε → ε') (a : α) (g : α → Except ε' β) :
    ((Except.ok a : Except ε α).mapError f >>= g) = g a := rfl

theorem mapError_bind_eq_error_iff {ε' : Type} {f : ε → ε'} {x : Except ε α} {g : α → Except ε' β}
    {e' : ε'} : (x.mapError f >>= g) = .error e' ↔
      (∃ e, x = .error e ∧ f e = e') ∨ ∃ a, x = .ok a ∧ g a = .error e' := by
  cases x with
  | error e => simp [bind, Except.bind, Except.mapError]
  | ok a => simp [bind, Except.bind, Except.mapError]

theorem mapM_congr {f g : α → Except ε β} {as : List α} (h : ∀ a ∈ as, f a = g a) :
    as.mapM f = as.mapM g := by
  induction as with
  | nil => rfl
  | cons a as ih =>
      obtain ⟨ha, has⟩ := List.forall_mem_cons.1 h
      rw [List.mapM_cons, List.mapM_cons, ha, ih has]

theorem mapM_eq_ok_iff {f : α → Except ε β} {as : List α} {bs : List β} :
    as.mapM f = .ok bs ↔ List.Forall₂ (fun a b => f a = .ok b) as bs := by
  induction as generalizing bs with
  | nil =>
      rw [List.mapM_nil, List.forall₂_nil_left_iff]
      exact ⟨fun h => (Except.ok.inj h).symm, fun h => h ▸ rfl⟩
  | cons a as ih =>
      rw [List.mapM_cons, bind_eq_ok_iff, List.forall₂_cons_left_iff]
      constructor
      · rintro ⟨b, hb, h⟩
        obtain ⟨bs', hbs, heq⟩ := bind_eq_ok_iff.1 h
        exact ⟨b, bs', hb, ih.1 hbs, (Except.ok.inj heq).symm⟩
      · rintro ⟨b, bs', hb, hbs, rfl⟩
        exact ⟨b, hb, bind_eq_ok_iff.2 ⟨bs', ih.2 hbs, rfl⟩⟩

theorem exists_of_mapM {f : α → Except ε β} {as : List α} {bs : List β} (h : as.mapM f = .ok bs)
    {b : β} (hb : b ∈ bs) : ∃ a ∈ as, f a = .ok b := by
  have hall := mapM_eq_ok_iff.1 h
  clear h
  induction hall with
  | nil => cases hb
  | cons hhead _ ih =>
      rcases List.mem_cons.1 hb with rfl | hb
      · exact ⟨_, List.mem_cons_self, hhead⟩
      · obtain ⟨a, ha, hfa⟩ := ih hb
        exact ⟨a, List.mem_cons_of_mem _ ha, hfa⟩

theorem exists_mapM_iff {f : α → Except ε β} {as : List α} :
    (∃ bs, as.mapM f = .ok bs) ↔ ∀ a ∈ as, ∃ b, f a = .ok b := by
  simp only [mapM_eq_ok_iff]
  induction as with
  | nil => exact ⟨fun _ => nofun, fun _ => ⟨[], .nil⟩⟩
  | cons a as ih =>
      rw [List.forall_mem_cons, ← ih]
      constructor
      · rintro ⟨_, hall⟩
        cases hall with
        | cons hhead htail => exact ⟨⟨_, hhead⟩, _, htail⟩
      · rintro ⟨⟨b, hhead⟩, bs, htail⟩
        exact ⟨b :: bs, .cons hhead htail⟩

/-- Items that stand for the entries of a list are turned into what the entries give. -/
theorem mapM_of_forall₂ {γ : Type} {R : γ → α → Prop} {f : α → Except ε β} {g : γ → β}
    {cs : List γ} {as : List α} (h : List.Forall₂ R cs as) (hf : ∀ c a, R c a → f a = .ok (g c)) :
    as.mapM f = .ok (cs.map g) := by
  rw [mapM_eq_ok_iff, List.forall₂_map_right_iff]
  exact (h.imp hf).flip

theorem forM_eq_ok_iff {f : α → Except ε Unit} {as : List α} :
    as.forM f = .ok () ↔ ∀ a ∈ as, f a = .ok () := by
  induction as with
  | nil => simp [List.forM, pure, Except.pure]
  | cons a as ih =>
      rw [List.forM, bind_eq_ok_iff, List.forall_mem_cons, ← ih]
      exact ⟨fun ⟨_, h, htail⟩ => ⟨h, htail⟩, fun ⟨h, htail⟩ => ⟨(), h, htail⟩⟩

/-- Each entry of a list is treated together with its place. -/
theorem mapM_zipIdx_eq_ok_iff {f : α × Nat → Except ε β} {as : List α} {bs : List β} :
    as.zipIdx.mapM f = .ok bs ↔
      bs.length = as.length ∧
        ∀ i a, as[i]? = some a → ∃ b, bs[i]? = some b ∧ f (a, i) = .ok b := by
  rw [mapM_eq_ok_iff, List.forall₂_iff_get]
  constructor
  · rintro ⟨hlength, h⟩
    rw [List.length_zipIdx] at hlength
    refine ⟨hlength.symm, ?_⟩
    intro i a ha
    obtain ⟨hi, rfl⟩ := List.getElem?_eq_some_iff.1 ha
    have hstep := h i (by rwa [List.length_zipIdx]) (by omega)
    exact ⟨bs.get ⟨i, by omega⟩, List.getElem?_eq_getElem _, by simpa using hstep⟩
  · rintro ⟨hlength, h⟩
    refine ⟨by rw [List.length_zipIdx, hlength], ?_⟩
    intro i hi hi'
    rw [List.length_zipIdx] at hi
    obtain ⟨b, hb, hfb⟩ := h i as[i] (List.getElem?_eq_getElem hi)
    obtain ⟨_, rfl⟩ := List.getElem?_eq_some_iff.1 hb
    simpa using hfb

/-- If it fails at all, a computation fails with a fault of some sort. -/
def FailsWith (P : ε → Prop) (x : Except ε α) : Prop :=
  ∀ e, x = .error e → P e

section

variable {P : ε → Prop}

theorem failsWith_ok (a : α) : FailsWith P (.ok a) :=
  nofun

theorem failsWith_error {e : ε} (h : P e) : FailsWith P (.error e : Except ε α) := by
  rintro _ ⟨⟩
  exact h

theorem failsWith_mapError {ε' : Type} {f : ε' → ε} (h : ∀ e, P (f e)) (x : Except ε' α) :
    FailsWith P (x.mapError f) := by
  cases x with
  | error e => exact failsWith_error (h e)
  | ok a => exact failsWith_ok a

theorem FailsWith.bind {x : Except ε α} {f : α → Except ε β} (hx : FailsWith P x)
    (hf : ∀ a, x = .ok a → FailsWith P (f a)) : FailsWith P (x >>= f) := by
  intro e h
  rcases bind_eq_error_iff.1 h with h | ⟨a, ha, h⟩
  · exact hx e h
  · exact hf a ha e h

theorem failsWith_mapM {f : α → Except ε β} {as : List α} (h : ∀ a ∈ as, FailsWith P (f a)) :
    FailsWith P (as.mapM f) := by
  induction as with
  | nil => exact failsWith_ok []
  | cons a as ih =>
      rw [List.mapM_cons]
      apply (h a List.mem_cons_self).bind
      intro b _
      apply (ih fun c hc => h c (List.mem_cons_of_mem a hc)).bind
      intro bs _
      exact failsWith_ok _

theorem failsWith_forM {f : α → Except ε Unit} {as : List α} (h : ∀ a ∈ as, FailsWith P (f a)) :
    FailsWith P (as.forM f) := by
  induction as with
  | nil => exact failsWith_ok ()
  | cons a as ih =>
      exact (h a List.mem_cons_self).bind fun _ _ => ih fun c hc => h c (List.mem_cons_of_mem a hc)

end

end CashWallet.Results
