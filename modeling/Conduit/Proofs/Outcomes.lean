import Mathlib.Data.List.Forall2

/-! Computations that may fail, taken apart. -/
namespace Conduit.Outcome

variable {α β ε ε' : Type}

theorem bindOk {x : Except ε α} {f : α → Except ε β} {b : β} :
    (x >>= f) = .ok b ↔ ∃ a, x = .ok a ∧ f a = .ok b := by
  cases x with
  | error e => exact ⟨fun failed => (by cases failed), fun ⟨_, failed, _⟩ => (by cases failed)⟩
  | ok a => exact ⟨fun same => ⟨a, rfl, same⟩, fun ⟨_, same, rest⟩ => (by cases same; exact rest)⟩

theorem bindError {x : Except ε α} {f : α → Except ε β} {e : ε} :
    (x >>= f) = .error e ↔ x = .error e ∨ ∃ a, x = .ok a ∧ f a = .error e := by
  cases x with
  | error e' =>
    refine ⟨fun same => .inl (by cases same; rfl), ?_⟩
    rintro (same | ⟨_, passed, _⟩)
    · exact congrArg Except.error (Except.error.inj same)
    · cases passed
  | ok a =>
    refine ⟨fun rest => .inr ⟨a, rfl, rest⟩, ?_⟩
    rintro (failed | ⟨_, same, rest⟩)
    · cases failed
    · cases same
      exact rest

theorem bindInjective {x : Except ε α} {f : α → β} (injective : Function.Injective f) {a : α} :
    (x >>= fun b => pure (f b)) = .ok (f a) ↔ x = .ok a := by
  cases x with
  | error e => exact ⟨fun failed => (by cases failed), fun failed => (by cases failed)⟩
  | ok b => exact ⟨fun same => congrArg _ (injective (Except.ok.inj same)), fun same => (by cases same; rfl)⟩

theorem okOfAny {x : Except ε α} {check : α → Bool} (passed : x.toOption.any check) : ∃ a, x = .ok a ∧ check a := by
  cases x with
  | error e => cases passed
  | ok a => exact ⟨a, rfl, passed⟩

@[simp] theorem mapErrorPassed (f : ε → ε') (a : α) : (Except.ok a : Except ε α).mapError f = .ok a := rfl

@[simp] theorem mapErrorFailed (f : ε → ε') (e : ε) :
    (Except.error e : Except ε α).mapError f = .error (f e) := rfl

theorem mapErrorOk {x : Except ε α} {f : ε → ε'} {a : α} : x.mapError f = .ok a ↔ x = .ok a := by
  cases x with
  | error e => exact ⟨fun failed => (by cases failed), fun failed => (by cases failed)⟩
  | ok b => exact ⟨fun same => congrArg _ (Except.ok.inj same), fun same => congrArg _ (Except.ok.inj same)⟩

theorem mapOk {x : Except ε α} {f : α → β} {b : β} : x.map f = .ok b ↔ ∃ a, x = .ok a ∧ f a = b := by
  cases x with
  | error e => exact ⟨fun failed => (by cases failed), fun ⟨_, failed, _⟩ => (by cases failed)⟩
  | ok a =>
    exact ⟨fun same => ⟨a, rfl, Except.ok.inj same⟩, fun ⟨_, same, rest⟩ => (by cases same; exact congrArg _ rest)⟩

theorem mapMOk {f : α → Except ε β} {items : List α} {results : List β} (done : items.mapM f = .ok results) :
    List.Forall₂ (fun a b => f a = .ok b) items results := by
  induction items generalizing results with
  | nil =>
    simp only [List.mapM_nil] at done
    cases done
    exact .nil
  | cons a rest ih =>
    simp only [List.mapM_cons, bindOk] at done
    obtain ⟨b, first, others, later, same⟩ := done
    cases same
    exact .cons first (ih later)

theorem matchedMember {R : α → β → Prop} {items : List α} {results : List β} (matched : List.Forall₂ R items results)
    {b : β} (member : b ∈ results) : ∃ a ∈ items, R a b := by
  induction matched with
  | nil => cases member
  | cons here _ ih =>
    rcases List.mem_cons.mp member with rfl | later
    · exact ⟨_, List.mem_cons_self, here⟩
    · obtain ⟨a, among, same⟩ := ih later
      exact ⟨a, List.mem_cons_of_mem _ among, same⟩

theorem matchedAmong {R : α → β → Prop} {items : List α} {results : List β} (matched : List.Forall₂ R items results) :
    List.Forall₂ (fun a b => a ∈ items ∧ b ∈ results ∧ R a b) items results := by
  have left := (List.forall₂_and_left items results).mpr ⟨fun a member => member, matched⟩
  have right := (List.forall₂_and_left results items).mpr ⟨fun b member => member, left.flip⟩
  exact right.flip.imp fun a b ⟨result, item, related⟩ => ⟨item, result, related⟩

theorem matchedAcross {α' β' : Type} {R : α → α' → Prop} {S : α → β → Prop} {S' : α' → β' → Prop} {T : β → β' → Prop}
    (across : ∀ a a' b b', R a a' → S a b → S' a' b' → T b b') {items : List α} {items' : List α'} {results : List β}
    {results' : List β'} (both : List.Forall₂ R items items') (left : List.Forall₂ S items results)
    (right : List.Forall₂ S' items' results') : List.Forall₂ T results results' := by
  induction both generalizing results results' with
  | nil =>
    cases left
    cases right
    exact .nil
  | cons here _ ih =>
    cases left with
    | cons first later =>
      cases right with
      | cons second after => exact .cons (across _ _ _ _ here first second) (ih later after)

theorem matchedZip {γ : Type} {R : β → γ → Prop} {S : α → β → Prop} {items : List α} {results : List β}
    {others : List γ} (matched : List.Forall₂ S items results) (beside : List.Forall₂ R results others) :
    List.Forall₂ (fun a p => S a p.1 ∧ R p.1 p.2) items (results.zip others) := by
  induction matched generalizing others with
  | nil => exact .nil
  | cons here _ ih =>
    cases beside with
    | cons first later => exact .cons ⟨here, first⟩ (ih later)

theorem filterMapMOk {f : α → Except ε (Option β)} {items : List α} {results : List β}
    (done : items.filterMapM f = .ok results) :
    ∃ kept, List.Sublist kept items ∧ List.Forall₂ (fun a b => f a = .ok (some b)) kept results := by
  induction items generalizing results with
  | nil =>
    simp only [List.filterMapM_nil] at done
    cases done
    exact ⟨[], .slnil, .nil⟩
  | cons a rest ih =>
    simp only [List.filterMapM_cons, bindOk] at done
    obtain ⟨b, first, done⟩ := done
    cases b with
    | none =>
      obtain ⟨kept, among, matched⟩ := ih done
      exact ⟨kept, among.cons a, matched⟩
    | some b =>
      obtain ⟨others, later, same⟩ := bindOk.mp done
      obtain ⟨kept, among, matched⟩ := ih later
      cases same
      exact ⟨a :: kept, among.cons_cons a, .cons first matched⟩

theorem mapMSame {f : α → Except ε α} {items : List α} : items.mapM f = .ok items ↔ ∀ a ∈ items, f a = .ok a := by
  constructor
  · exact fun done => List.forall₂_same.mp (mapMOk done)
  · intro each
    induction items with
    | nil => rfl
    | cons a items ih =>
      obtain ⟨here, others⟩ := List.forall_mem_cons.mp each
      rw [List.mapM_cons, here, ih others]
      rfl

theorem filterMapMSame {f : α → Except ε (Option α)} {items : List α} :
    items.filterMapM f = .ok items ↔ ∀ a ∈ items, f a = .ok (some a) := by
  constructor
  · intro done
    obtain ⟨kept, among, matched⟩ := filterMapMOk done
    cases among.eq_of_length matched.length_eq
    exact List.forall₂_same.mp matched
  · intro each
    induction items with
    | nil => rfl
    | cons a items ih =>
      obtain ⟨here, others⟩ := List.forall_mem_cons.mp each
      rw [List.filterMapM_cons, here, ih others]
      rfl

end Conduit.Outcome
