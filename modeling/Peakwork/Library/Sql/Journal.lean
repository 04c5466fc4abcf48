/-
This file gives rules for what an action leaves in the file, whether it returns or throws.
-/

import Peakwork.Library.Sql.Rules

namespace Peakwork.Sql

/-- Each file that a commit makes is good and extends the one before. -/
inductive Journal (Good : Catalog → Prop) (Extends : Catalog → Catalog → Prop) : Catalog → List Catalog → Catalog → Prop where
  | nil {catalog : Catalog} (good : Good catalog) : Journal Good Extends catalog [] catalog
  | cons {catalog after final : Catalog} {commits : List Catalog} (good : Good catalog) (extends_ : Extends catalog after)
      (rest : Journal Good Extends after commits final) : Journal Good Extends catalog (after :: commits) final

namespace Journal

variable {Good : Catalog → Prop} {Extends : Catalog → Catalog → Prop} {catalog middle final : Catalog}
  {commits later : List Catalog}

theorem start (journal : Journal Good Extends catalog commits final) : Good catalog := by
  cases journal with
  | nil good => exact good
  | cons good _ _ => exact good

theorem append (first : Journal Good Extends catalog commits middle) (second : Journal Good Extends middle later final) :
    Journal Good Extends catalog (commits ++ later) final := by
  induction first with
  | nil _ => exact second
  | cons good extends_ _ ih => exact .cons good extends_ (ih second)

theorem last (journal : Journal Good Extends catalog commits final) : (catalog :: commits).getLast? = some final := by
  induction journal with
  | nil _ => rfl
  | cons _ _ _ ih => rw [List.getLast?_cons_cons, ih]

/-- A file of the journal is good, extends the first one and is extended by the last one. -/
theorem between (refl : ∀ catalog, Extends catalog catalog)
    (trans : ∀ first second third, Extends first second → Extends second third → Extends first third)
    (journal : Journal Good Extends catalog commits final) {file : Catalog} (member : file ∈ catalog :: commits) :
    Good file ∧ Extends catalog file ∧ Extends file final := by
  induction journal generalizing file with
  | nil good =>
      rw [List.mem_singleton.mp member]
      exact ⟨good, refl _, refl _⟩
  | cons good extends_ rest ih =>
      obtain ⟨_, _, whole⟩ := ih List.mem_cons_self
      rcases List.mem_cons.mp member with rfl | later
      · exact ⟨good, refl _, trans _ _ _ extends_ whole⟩
      · obtain ⟨there, after, before⟩ := ih later
        exact ⟨there, trans _ _ _ extends_ after, before⟩

end Journal

/-- The action leaves a journal; it throws only where it may, and otherwise its value and the last file are as stated. -/
def Writes (Good : Catalog → Prop) (Extends : Catalog → Catalog → Prop) (mayThrow : Prop) {Value : Type}
    (action : Action Value) (catalog : Catalog) (Returns : Value → Catalog → Prop) : Prop :=
  ∀ log, ∃ commits final, Journal Good Extends catalog commits final ∧
    ((∃ value, action.run ⟨⟨catalog, false⟩, log⟩ = .ok value ⟨⟨final, false⟩, commits.reverse ++ log⟩ ∧ Returns value final) ∨
      mayThrow ∧ ∃ error, action.run ⟨⟨catalog, false⟩, log⟩ = .error error ⟨⟨final, false⟩, commits.reverse ++ log⟩)

section Rules

variable {Good : Catalog → Prop} {Extends : Catalog → Catalog → Prop} {mayThrow : Prop} {Value Result : Type}
  {catalog : Catalog}

theorem writes_mono {action : Action Value} {Returns Weaker : Value → Catalog → Prop}
    (writes : Writes Good Extends mayThrow action catalog Returns)
    (weaker : ∀ value after, Returns value after → Weaker value after) :
    Writes Good Extends mayThrow action catalog Weaker := by
  intro log
  obtain ⟨commits, final, journal, ⟨value, done, returns⟩ | thrown⟩ := writes log
  · exact ⟨commits, final, journal, .inl ⟨value, done, weaker value final returns⟩⟩
  · exact ⟨commits, final, journal, .inr thrown⟩

/-- An action that commits nothing gives a value. -/
theorem writes_ask {question : Action Value} {Returns : Value → Catalog → Prop} (good : Good catalog) (value : Value)
    (asked : ∀ log, question.run ⟨⟨catalog, false⟩, log⟩ = .ok value ⟨⟨catalog, false⟩, log⟩)
    (returns : Returns value catalog) : Writes Good Extends mayThrow question catalog Returns :=
  fun log => ⟨[], catalog, .nil good, .inl ⟨value, asked log, returns⟩⟩

theorem writes_known {question : Action Value} (good : Good catalog) (value : Value)
    (asked : ∀ log, question.run ⟨⟨catalog, false⟩, log⟩ = .ok value ⟨⟨catalog, false⟩, log⟩) :
    Writes Good Extends mayThrow question catalog fun given after => given = value ∧ after = catalog :=
  writes_ask good value asked ⟨rfl, rfl⟩

theorem writes_pure {value : Value} {Returns : Value → Catalog → Prop} (good : Good catalog)
    (returns : Returns value catalog) : Writes Good Extends mayThrow (pure value) catalog Returns :=
  writes_ask good value (fun _ => rfl) returns

/-- An action that commits nothing may throw. -/
theorem writes_throw {action : Action Value} {Returns : Value → Catalog → Prop} (good : Good catalog) (may : mayThrow)
    (error : DbError) (thrown : ∀ log, action.run ⟨⟨catalog, false⟩, log⟩ = .error error ⟨⟨catalog, false⟩, log⟩) :
    Writes Good Extends mayThrow action catalog Returns :=
  fun log => ⟨[], catalog, .nil good, .inr ⟨may, error, thrown log⟩⟩

/-- An action that leaves the connection as it was gives some value or throws. -/
theorem writes_unchanged {action : Action Value} {Returns : Value → Catalog → Prop} (good : Good catalog)
    (may : mayThrow) (unchanged : ∀ connection, (∃ value, action.run connection = .ok value connection) ∨
      ∃ error, action.run connection = .error error connection) (returns : ∀ value, Returns value catalog) :
    Writes Good Extends mayThrow action catalog Returns := by
  intro log
  refine ⟨[], catalog, .nil good, ?_⟩
  rcases unchanged ⟨⟨catalog, false⟩, log⟩ with ⟨value, done⟩ | ⟨error, failed⟩
  · exact .inl ⟨value, done, returns value⟩
  · exact .inr ⟨may, error, failed⟩

/-- An action is one transaction. -/
theorem writes_commit {action : Action Unit} {Returns : Unit → Catalog → Prop} (good : Good catalog) (after : Catalog)
    (made : Good after) (extends_ : Extends catalog after)
    (committed : ∀ log, action.run ⟨⟨catalog, false⟩, log⟩ = .ok () ⟨⟨after, false⟩, after :: log⟩)
    (returns : Returns () after) : Writes Good Extends mayThrow action catalog Returns :=
  fun log => ⟨[after], after, .cons good extends_ (.nil made), .inl ⟨(), committed log, returns⟩⟩

theorem writes_bind {first : Action Value} {next : Value → Action Result} {Between : Value → Catalog → Prop}
    {Returns : Result → Catalog → Prop} (left : Writes Good Extends mayThrow first catalog Between)
    (right : ∀ value middle, Between value middle → Writes Good Extends mayThrow (next value) middle Returns) :
    Writes Good Extends mayThrow (first >>= next) catalog Returns := by
  intro log
  obtain ⟨commits, middle, journal, ⟨value, done, between⟩ | ⟨may, error, failed⟩⟩ := left log
  · obtain ⟨later, final, rest, outcome⟩ := right value middle between (commits.reverse ++ log)
    refine ⟨commits ++ later, final, journal.append rest, ?_⟩
    rw [Action.bind_ok done, List.reverse_append, List.append_assoc]
    exact outcome
  · exact ⟨commits, middle, journal, .inr ⟨may, error, Action.bind_error failed⟩⟩

/-- A loop keeps what each of its steps keeps about the items that are done. -/
theorem writes_forM {Item : Type} {body : Item → Action Unit} {Always : List Item → Catalog → Prop}
    (good : ∀ done catalog, Always done catalog → Good catalog)
    (items : List Item) (step : ∀ done item catalog, item ∈ items → Always done catalog →
      Writes Good Extends mayThrow (body item) catalog fun _ after => Always (done ++ [item]) after)
    (done : List Item) (start : Always done catalog) :
    Writes Good Extends mayThrow (items.forM body) catalog fun _ after => Always (done ++ items) after := by
  induction items generalizing done catalog with
  | nil =>
      rw [List.append_nil]
      exact writes_pure (good done catalog start) start
  | cons item rest ih =>
      apply writes_bind (step done item catalog List.mem_cons_self start)
      intro _ middle reached
      have later := ih (fun done item catalog member => step done item catalog (List.mem_cons_of_mem _ member))
        (done ++ [item]) reached
      rw [List.append_assoc] at later
      exact later

end Rules

end Peakwork.Sql
