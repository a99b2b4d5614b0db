import Mathlib.Tactic

/-! Actions on a state that may throw. An action that throws keeps the state it has
reached. The rules follow what an action does to an observation of the state, and what
it appends to an output. -/

def StateAction (σ α : Type) : Type := σ → Option α × σ

namespace StateAction

variable {σ τ α β γ δ : Type}

instance instMonad : Monad (StateAction σ) where
  pure a := fun s => (some a, s)
  bind x f := fun s =>
    match x s with
    | (some a, t) => f a t
    | (none, t) => (none, t)

def throw : StateAction σ α := fun s => (none, s)

def ofOption (x : Option α) : StateAction σ α := fun s => (x, s)

def get : StateAction σ σ := fun s => (some s, s)

def modify (f : σ → σ) : StateAction σ Unit := fun s => (some (), f s)

/-- `none` when the action throws. -/
def attempt (x : StateAction σ α) : StateAction σ (Option α) := fun s => (some (x s).1, (x s).2)

def zoom (get : σ → τ) (set : τ → σ → σ) (x : StateAction τ α) : StateAction σ α := fun s =>
  ((x (get s)).1, set (x (get s)).2 s)

structure Returns (x : StateAction σ α) (Q : α → Prop) : Prop where
  of_some : ∀ s a, (x s).1 = some a → Q a

def NeverThrows (x : StateAction σ α) : Prop := ∀ s, (x s).1 ≠ none

def Preserves (observe : σ → γ) (x : StateAction σ α) : Prop := ∀ s, observe (x s).2 = observe s

/-- A returning action has appended one output that meets `P`, and a throwing one none. -/
def Emits (output : σ → List δ) (P : δ → Prop) (x : StateAction σ α) : Prop :=
  ∀ s, ((x s).1 ≠ none → ∃ d, P d ∧ output (x s).2 = output s ++ [d]) ∧
    ((x s).1 = none → output (x s).2 = output s)

lemma bind_of_some {x : StateAction σ α} {f : α → StateAction σ β} {s : σ} {a : α} (h : (x s).1 = some a) :
    (x >>= f) s = f a (x s).2 := by
  change (match x s with | (some a, t) => f a t | (none, t) => (none, t)) = _
  rcases hx : x s with ⟨result, t⟩
  rw [hx] at h
  cases h
  rfl

lemma bind_of_eq {x : StateAction σ α} {f : α → StateAction σ β} {s t : σ} {a : α} (h : x s = (some a, t)) :
    (x >>= f) s = f a t := by
  rw [bind_of_some (congrArg Prod.fst h), h]

lemma bind_of_none {x : StateAction σ α} {f : α → StateAction σ β} {s : σ} (h : (x s).1 = none) :
    (x >>= f) s = (none, (x s).2) := by
  change (match x s with | (some a, t) => f a t | (none, t) => (none, t)) = _
  rcases hx : x s with ⟨result, t⟩
  rw [hx] at h
  cases h
  rfl

lemma snd_bind_pure (x : StateAction σ α) (b : β) (s : σ) : ((x >>= fun _ => pure b) s).2 = (x s).2 := by
  cases h : (x s).1 with
  | none => rw [bind_of_none h]
  | some a =>
    rw [bind_of_some h]
    rfl

lemma bind_ofOption_some (a : α) (f : α → StateAction σ β) : (ofOption (some a) >>= f) = f a := rfl

section Returns

variable {Q : α → Prop} {R : β → Prop}

lemma returns_pure {a : α} (h : Q a) : Returns (pure a : StateAction σ α) Q := by
  constructor
  intro s b hb
  cases hb
  exact h

lemma returns_ofOption (x : Option α) : Returns (ofOption x : StateAction σ α) fun a => x = some a :=
  ⟨fun _ _ h => h⟩

lemma Returns.bind {x : StateAction σ α} {f : α → StateAction σ β} (hx : Returns x Q)
    (hf : ∀ a, Q a → Returns (f a) R) : Returns (x >>= f) R := by
  constructor
  intro s b hb
  cases h : (x s).1 with
  | none =>
    rw [bind_of_none h] at hb
    cases hb
  | some a =>
    rw [bind_of_some h] at hb
    exact (hf a (hx.of_some s a h)).of_some (x s).2 b hb

lemma returns_any (x : StateAction σ α) : Returns x fun _ => True := ⟨fun _ _ _ => trivial⟩

lemma Returns.bind_any {x : StateAction σ α} {f : α → StateAction σ β} (hf : ∀ a, Returns (f a) R) :
    Returns (x >>= f) R :=
  (returns_any x).bind fun a _ => hf a

lemma Returns.mono {x : StateAction σ α} {Q' : α → Prop} (hx : Returns x Q) (h : ∀ a, Q a → Q' a) :
    Returns x Q' :=
  ⟨fun s a ha => h a (hx.of_some s a ha)⟩

lemma Returns.zoom {get : σ → τ} {set : τ → σ → σ} {x : StateAction τ α} (hx : Returns x Q) :
    Returns (zoom get set x) Q := ⟨fun s => hx.of_some (get s)⟩

end Returns

section NeverThrows

lemma neverThrows_pure (a : α) : NeverThrows (pure a : StateAction σ α) := by
  intro s h
  cases h

lemma neverThrows_modify (f : σ → σ) : NeverThrows (modify f) := by
  intro s h
  cases h

lemma neverThrows_ofOption {x : Option α} (h : x ≠ none) :
    NeverThrows (ofOption x : StateAction σ α) := fun _ => h

lemma NeverThrows.bind_returns {x : StateAction σ α} {Q : α → Prop} {f : α → StateAction σ β}
    (hx : NeverThrows x) (hQ : Returns x Q) (hf : ∀ a, Q a → NeverThrows (f a)) : NeverThrows (x >>= f) := by
  intro s
  obtain ⟨a, ha⟩ := Option.ne_none_iff_exists'.mp (hx s)
  rw [bind_of_some ha]
  exact hf a (hQ.of_some s a ha) (x s).2

lemma NeverThrows.bind {x : StateAction σ α} {f : α → StateAction σ β} (hx : NeverThrows x)
    (hf : ∀ a, NeverThrows (f a)) : NeverThrows (x >>= f) :=
  hx.bind_returns (returns_any x) fun a _ => hf a

lemma NeverThrows.zoom {get : σ → τ} {set : τ → σ → σ} {x : StateAction τ α} (hx : NeverThrows x) :
    NeverThrows (zoom get set x) := fun s => hx (get s)

end NeverThrows

section Preserves

variable {observe : σ → γ}

lemma preserves_pure (a : α) : Preserves observe (pure a : StateAction σ α) := fun _ => rfl

lemma preserves_throw : Preserves observe (throw : StateAction σ α) := fun _ => rfl

lemma preserves_ofOption (x : Option α) : Preserves observe (ofOption x) := fun _ => rfl

lemma preserves_get : Preserves observe (get : StateAction σ σ) := fun _ => rfl

lemma Preserves.bind_returns {x : StateAction σ α} {Q : α → Prop} {f : α → StateAction σ β}
    (hx : Preserves observe x) (hQ : Returns x Q) (hf : ∀ a, Q a → Preserves observe (f a)) :
    Preserves observe (x >>= f) := by
  intro s
  cases h : (x s).1 with
  | none => rw [bind_of_none h, hx s]
  | some a => rw [bind_of_some h, hf a (hQ.of_some s a h), hx s]

lemma Preserves.bind {x : StateAction σ α} {f : α → StateAction σ β} (hx : Preserves observe x)
    (hf : ∀ a, Preserves observe (f a)) : Preserves observe (x >>= f) :=
  hx.bind_returns (returns_any x) fun a _ => hf a

lemma observe_foldl {step : σ → α → σ} (h : ∀ s a, observe (step s a) = observe s) (xs : List α) (s : σ) :
    observe (xs.foldl step s) = observe s := by
  induction xs generalizing s with
  | nil => rfl
  | cons a xs ih => exact (ih (step s a)).trans (h s a)

lemma observe_bind {x : StateAction σ α} {f : α → StateAction σ β} (hf : ∀ a, Preserves observe (f a)) (s : σ) :
    observe ((x >>= f) s).2 = observe (x s).2 := by
  cases h : (x s).1 with
  | none => rw [bind_of_none h]
  | some a => rw [bind_of_some h, hf a]

lemma Preserves.attempt {x : StateAction σ α} (hx : Preserves observe x) : Preserves observe (attempt x) := hx

end Preserves

section Moves

/-- Whether it returns or throws, the action takes the state a step of `R`. -/
def Moves (R : σ → σ → Prop) (x : StateAction σ α) : Prop := ∀ s, R s (x s).2

variable {R : σ → σ → Prop}

lemma moves_modify {f : σ → σ} (h : ∀ s, R s (f s)) : Moves R (modify f) := h

lemma moves_get_bind {f : σ → StateAction σ β} (h : ∀ s, R s (f s s).2) : Moves R (get >>= f) := h

lemma Moves.attempt {x : StateAction σ α} (hx : Moves R x) : Moves R (attempt x) := hx

variable [IsPreorder σ R]

lemma Preserves.moves {x : StateAction σ α} (hx : Preserves id x) : Moves R x := by
  intro s
  have hsame : (x s).2 = s := hx s
  rw [hsame]
  exact Std.Refl.refl s

lemma moves_pure (a : α) : Moves R (pure a : StateAction σ α) := Preserves.moves (preserves_pure a)

lemma moves_ofOption (x : Option α) : Moves R (ofOption x : StateAction σ α) := Preserves.moves (preserves_ofOption x)

lemma Moves.bind {x : StateAction σ α} {f : α → StateAction σ β} (hx : Moves R x) (hf : ∀ a, Moves R (f a)) :
    Moves R (x >>= f) := by
  intro s
  cases h : (x s).1 with
  | none =>
    rw [bind_of_none h]
    exact hx s
  | some a =>
    rw [bind_of_some h]
    exact IsTrans.trans _ _ _ (hx s) (hf a (x s).2)

end Moves

section Emits

variable {output : σ → List δ} {P : δ → Prop}

lemma Emits.bind_returns {x : StateAction σ α} {Q : α → Prop} {f : α → StateAction σ β}
    (hx : Preserves output x) (hQ : Returns x Q) (hf : ∀ a, Q a → Emits output P (f a)) :
    Emits output P (x >>= f) := by
  intro s
  cases h : (x s).1 with
  | none =>
    rw [bind_of_none h]
    exact ⟨fun hreturns => absurd rfl hreturns, fun _ => hx s⟩
  | some a =>
    rw [bind_of_some h, ← hx s]
    exact hf a (hQ.of_some s a h) (x s).2

lemma Emits.bind_left {x : StateAction σ α} {f : α → StateAction σ β} (hx : Preserves output x)
    (hf : ∀ a, Emits output P (f a)) : Emits output P (x >>= f) :=
  Emits.bind_returns hx (returns_any x) fun a _ => hf a

lemma Emits.bind_right {x : StateAction σ α} {f : α → StateAction σ β} (hx : Emits output P x)
    (hf : ∀ a, Preserves output (f a)) (hreturns : ∀ a, NeverThrows (f a)) : Emits output P (x >>= f) := by
  intro s
  obtain ⟨hemits, hquiet⟩ := hx s
  cases h : (x s).1 with
  | none =>
    rw [bind_of_none h]
    exact ⟨fun hreturns => absurd rfl hreturns, fun _ => hquiet h⟩
  | some a =>
    rw [bind_of_some h, hf a]
    exact ⟨fun _ => hemits (by rw [h]; exact Option.some_ne_none a), fun hthrows => absurd hthrows (hreturns a _)⟩

end Emits

end StateAction
