/-
This file gives an archive that takes one entry after the other and moves its volumes on when the newest one is full.
-/

import Mathlib.Data.List.ReduceOption
import Peakwork.Library.Archive
import Peakwork.Library.Run

namespace Peakwork

/-- A new volume starts with a header, and the volumes up to the last number are kept. -/
structure Retention (Entry : Type) where
  size : Entry → Nat
  header : Entry
  limit : Nat
  last : Nat

/-- In each life the volume is opened by the first entry. -/
structure Rotation (Entry : Type) where
  opened : Bool
  archive : Archive Entry

namespace Rotation

inductive Event (Entry : Type) where
  | add (entry : Entry)
  | reopen

def Event.entries {Entry : Type} : Event Entry → List Entry
  | .add entry => [entry]
  | .reopen => []

def Event.reopens {Entry : Type} : Event Entry → Nat
  | .add _ => 0
  | .reopen => 1

section Machine

variable {Entry : Type} (retention : Retention Entry)

def volumeSize (archive : Archive Entry) (number : Nat) : Nat := (((archive number).getD []).map retention.size).sum

/-- Only an empty volume gets the header. -/
def heads (archive : Archive Entry) : List Entry := if volumeSize retention archive 0 = 0 then [retention.header] else []

def roll (archive : Archive Entry) : Archive Entry :=
  (archive.unlink retention.last).renameDown id (fun _ => true) retention.last

/-- The size is not looked at when the volume is opened. -/
def next (rotation : Rotation Entry) : Event Entry → Rotation Entry
  | .reopen => { rotation with opened := false }
  | .add entry =>
      let ready :=
        if rotation.opened = false then rotation.archive.append (heads retention rotation.archive)
        else if 0 < retention.last ∧ retention.limit < volumeSize retention rotation.archive 0 then
          (roll retention rotation.archive).append (heads retention (roll retention rotation.archive))
        else rotation.archive.append []
      ⟨true, ready.append [entry]⟩

end Machine

section Steps

variable {Entry : Type} {retention : Retention Entry} {rotation : Rotation Entry} {archive : Archive Entry}

theorem roll_zero : roll retention archive 0 = none :=
  (Files.entries_renameDown_free Files.unlink_self (Nat.lt_succ_self retention.last)).2

theorem roll_succ {number : Nat} (below : number < retention.last) : roll retention archive (number + 1) = archive number := by
  rw [roll, Files.renameDown_free_succ Files.unlink_self below]
  exact Files.unlink_other (by omega)

theorem heads_roll : heads retention (roll retention archive) = [retention.header] := by
  rw [heads, volumeSize, roll_zero]
  rfl

theorem eq_header_of_mem {entry : Entry} (member : entry ∈ heads retention archive) : entry = retention.header := by
  rw [heads] at member
  split at member
  · exact List.mem_singleton.mp member
  · exact absurd member List.not_mem_nil

theorem volumeSize_append_zero (added : List Entry) :
    volumeSize retention (archive.append added) 0 = volumeSize retention archive 0 + (added.map retention.size).sum := by
  rw [volumeSize, Files.append, Function.update_self, Option.getD_some, List.map_append, List.sum_append, volumeSize]

theorem volumeSize_append_other (added : List Entry) {number : Nat} (older : number ≠ 0) :
    volumeSize retention (archive.append added) number = volumeSize retention archive number := by
  rw [volumeSize, Files.append_other added older, volumeSize]

/-- An entry is appended behind a header or none, or a full volume is moved on first. -/
theorem next_add (entry : Entry) :
    (∃ added, (next retention rotation (.add entry)).archive = rotation.archive.append (added ++ [entry]) ∧
      (added = [] ∨ added = [retention.header] ∧ volumeSize retention rotation.archive 0 = 0) ∧
      (rotation.opened = true → added = [] ∧ ¬ (0 < retention.last ∧ retention.limit < volumeSize retention rotation.archive 0))) ∨
    rotation.opened = true ∧ (0 < retention.last ∧ retention.limit < volumeSize retention rotation.archive 0) ∧
      (next retention rotation (.add entry)).archive = (roll retention rotation.archive).append [retention.header, entry] := by
  cases opened : rotation.opened with
  | false =>
      apply Or.inl
      refine ⟨heads retention rotation.archive, ?_, ?_, fun absurd => by cases absurd⟩
      · rw [next, if_pos opened, Files.append_append]
      · rw [heads]
        split
        · exact Or.inr ⟨rfl, ‹_›⟩
        · exact Or.inl rfl
  | true =>
      have shut : ¬ rotation.opened = false := by
        rw [opened]
        decide
      by_cases full : 0 < retention.last ∧ retention.limit < volumeSize retention rotation.archive 0
      · apply Or.inr
        rw [next, if_neg shut, if_pos full, heads_roll, Files.append_append]
        exact ⟨rfl, full, rfl⟩
      · apply Or.inl
        refine ⟨[], ?_, Or.inl rfl, fun _ => ⟨rfl, full⟩⟩
        rw [next, if_neg shut, if_neg full, Files.append_append]

end Steps

section Contents

variable {Entry Item : Type} {retention : Retention Entry} {initial : Archive Entry} {written : List Entry} {rotation : Rotation Entry}

/-- These are the volumes of a whole life, the oldest one first: those of the start, of which the newest has grown, and
later ones behind a header. Each of them was full when the next one was begun. -/
structure Chronicle (retention : Retention Entry) (initial : Archive Entry) (written : List Entry) (volumes : List (List Entry)) : Prop where
  contents : volumes.flatten = initial.entries (retention.last + 1) ++ written
  older : volumes.take retention.last = (initial.volumes (retention.last + 1)).take retention.last
  grown : ∃ added, volumes[retention.last]? = some ((initial 0).getD [] ++ added)
  headed : ∀ volume ∈ volumes.drop (retention.last + 1), ∃ rest, volume = retention.header :: rest
  full : ∀ volume ∈ (volumes.drop retention.last).dropLast, retention.limit < (volume.map retention.size).sum

section Chronicle

variable {older : List (List Entry)} {newest : List Entry}

theorem Chronicle.start : Chronicle retention initial [] (initial.volumes (retention.last + 1)) where
  contents := by rw [Files.volumes_flatten, List.append_nil]
  older := rfl
  grown := by
    use []
    rw [Files.volumes_newest, List.append_nil, List.getElem?_append_right (Files.length_volumes _).le, Files.length_volumes,
      Nat.sub_self]
    rfl
  headed := by
    rw [List.drop_of_length_le (Files.length_volumes _).le]
    exact fun volume member => absurd member List.not_mem_nil
  full := by
    rw [Files.volumes_newest, List.drop_append_of_le_length (Files.length_volumes _).ge,
      List.drop_of_length_le (Files.length_volumes _).le]
    exact fun volume member => absurd member List.not_mem_nil

theorem Chronicle.long (chronicle : Chronicle retention initial written (older ++ [newest])) : retention.last ≤ older.length := by
  obtain ⟨added, here⟩ := chronicle.grown
  have inside := (List.getElem?_eq_some_iff.mp here).1
  rw [List.length_append, List.length_singleton] at inside
  omega

/-- The newest volume may grow. -/
theorem Chronicle.grow (chronicle : Chronicle retention initial written (older ++ [newest])) (added : List Entry) :
    Chronicle retention initial (written ++ added) (older ++ [newest ++ added]) where
  contents := by
    have before := chronicle.contents
    rw [List.flatten_append, List.flatten_singleton] at before ⊢
    rw [← List.append_assoc, before, List.append_assoc]
  older := by
    have before := chronicle.older
    rw [List.take_append_of_le_length chronicle.long] at before ⊢
    exact before
  grown := by
    obtain ⟨first, here⟩ := chronicle.grown
    rcases chronicle.long.lt_or_eq with inside | last
    · use first
      rw [List.getElem?_append_left inside] at here ⊢
      exact here
    · use first ++ added
      rw [List.getElem?_append_right last.ge, ← last, Nat.sub_self] at here ⊢
      rw [← List.append_assoc, ← Option.some.inj here]
      rfl
  headed := by
    intro volume member
    rcases chronicle.long.lt_or_eq with inside | last
    · have before := chronicle.headed
      rw [List.drop_append_of_le_length inside] at before member
      rcases List.mem_append.mp member with old | new
      · exact before volume (List.mem_append_left _ old)
      · obtain ⟨rest, begun⟩ := before newest (List.mem_append_right _ (List.mem_singleton_self newest))
        use rest ++ added
        rw [List.mem_singleton.mp new, begun, List.cons_append]
    · rw [List.drop_of_length_le (by rw [List.length_append, List.length_singleton, last])] at member
      exact absurd member List.not_mem_nil
  full := by
    have before := chronicle.full
    rw [List.drop_append_of_le_length chronicle.long, List.dropLast_concat] at before ⊢
    exact before

/-- A full volume may be followed by a new one. -/
theorem Chronicle.begin (chronicle : Chronicle retention initial written (older ++ [newest]))
    (full : retention.limit < (newest.map retention.size).sum) (rest : List Entry) :
    Chronicle retention initial (written ++ retention.header :: rest) (older ++ [newest] ++ [retention.header :: rest]) where
  contents := by rw [List.flatten_append, chronicle.contents, List.flatten_singleton, List.append_assoc]
  older := by
    have before := chronicle.older
    rw [List.take_append_of_le_length]
    · exact before
    · rw [List.length_append]
      exact Nat.le_add_right_of_le chronicle.long
  grown := by
    obtain ⟨first, here⟩ := chronicle.grown
    use first
    rw [List.getElem?_append_left (List.getElem?_eq_some_iff.mp here).1]
    exact here
  headed := by
    intro volume member
    rw [List.drop_append_of_le_length] at member
    · rcases List.mem_append.mp member with old | new
      · exact chronicle.headed volume old
      · exact ⟨rest, List.mem_singleton.mp new⟩
    · rw [List.length_append, List.length_singleton]
      exact Nat.succ_le_succ chronicle.long
  full := by
    intro volume member
    have before := chronicle.full
    rw [List.append_assoc, List.drop_append_of_le_length chronicle.long, ← List.append_assoc, List.dropLast_concat] at member
    rw [List.drop_append_of_le_length chronicle.long, List.dropLast_concat] at before
    rcases List.mem_append.mp member with old | last
    · exact before volume old
    · rw [List.mem_singleton.mp last]
      exact full

end Chronicle

/-- Whole oldest volumes are lost, and all that is written is still there until the older volumes are full. -/
structure Kept (retention : Retention Entry) (initial : Archive Entry) (written : List Entry) (archive : Archive Entry)
    (lost : List (List Entry)) : Prop where
  chronicle : Chronicle retention initial written (lost ++ archive.volumes (retention.last + 1))
  rolled : lost ≠ [] → 0 < retention.last
  aged : ∀ number, 1 ≤ number → number ≤ retention.last → number ≤ lost.length → retention.limit < volumeSize retention archive number
  recent : lost.length ≤ retention.last → written <:+ archive.entries (lost.length + 1)

section Kept

variable {lost : List (List Entry)}

theorem Kept.start : Kept retention initial [] initial [] where
  chronicle := .start
  rolled := fun absurd_ => absurd rfl absurd_
  aged := fun _ positive _ none_ => absurd positive (Nat.not_le_of_lt (Nat.lt_succ_of_le none_))
  recent := fun _ => List.nil_suffix

theorem Kept.append {archive : Archive Entry} (kept : Kept retention initial written archive lost) (added : List Entry) :
    Kept retention initial (written ++ added) (archive.append added) lost where
  chronicle := by
    have before := kept.chronicle
    rw [Files.volumes_newest, ← List.append_assoc] at before
    rw [Files.volumes_append, ← List.append_assoc]
    exact before.grow added
  rolled := kept.rolled
  aged := by
    intro number positive within rolled
    rw [volumeSize_append_other added (by omega)]
    exact kept.aged number positive within rolled
  recent := by
    intro few
    rw [Files.entries_append]
    obtain ⟨before, whole⟩ := kept.recent few
    exact ⟨before, by rw [← List.append_assoc, whole]⟩

theorem Kept.roll {archive : Archive Entry} (kept : Kept retention initial written archive lost) (rolls : 0 < retention.last)
    (full : retention.limit < volumeSize retention archive 0) (rest : List Entry) :
    Kept retention initial (written ++ retention.header :: rest) ((roll retention archive).append (retention.header :: rest))
      (lost ++ [(archive retention.last).getD []]) where
  chronicle := by
    have before := kept.chronicle
    have oldest : [(archive retention.last).getD []] ++ archive.volumes retention.last = archive.volumes (retention.last + 1) := rfl
    rw [Files.volumes_newest, ← List.append_assoc] at before
    rw [Files.volumes_shift roll_zero (fun number below => roll_succ below), ← List.append_assoc, List.append_assoc lost,
      oldest, Files.volumes_newest, ← List.append_assoc]
    exact before.begin full rest
  rolled := fun _ => rolls
  aged := by
    intro number positive within aged
    rw [List.length_append, List.length_singleton] at aged
    obtain ⟨number, rfl⟩ := Nat.exists_eq_add_of_le' positive
    rw [volumeSize_append_other _ (by omega), volumeSize, roll_succ (by omega), ← volumeSize]
    rcases Nat.eq_zero_or_pos number with rfl | older
    · exact full
    · exact kept.aged number older (by omega) (by omega)
  recent := by
    intro few
    rw [List.length_append, List.length_singleton] at few
    rw [List.length_append, List.length_singleton, Files.entries_append,
      Files.entries_shift roll_zero fun number below => roll_succ (by omega)]
    obtain ⟨before, whole⟩ := kept.recent (by omega)
    exact ⟨before, by rw [← List.append_assoc, whole]⟩

end Kept

variable {lost : List (List Entry)} {item : Entry → Option Item} (plain : item retention.header = none)

include plain

theorem Kept.next (kept : Kept retention initial written rotation.archive lost) (event : Event Entry) :
    ∃ added gone, Kept retention initial (written ++ added) (next retention rotation event).archive (lost ++ gone) ∧
      added.filterMap item = event.entries.filterMap item ∧ ∀ entry ∈ added, entry = retention.header ∨ entry ∈ event.entries := by
  cases event with
  | reopen =>
      refine ⟨[], [], ?_, rfl, fun other none_ => absurd none_ List.not_mem_nil⟩
      rw [List.append_nil, List.append_nil]
      exact kept
  | add entry =>
      rcases @next_add _ retention rotation entry with ⟨added, after, header, opened⟩ | ⟨_, full, after⟩
      · refine ⟨added ++ [entry], [], ?_, ?_, ?_⟩
        · rw [after, List.append_nil]
          exact kept.append _
        · have none_ : added.filterMap item = [] := by
            rcases header with rfl | ⟨rfl, _⟩
            · rfl
            · rw [List.filterMap_cons_none plain, List.filterMap_nil]
          rw [List.filterMap_append, none_, List.nil_append]
          rfl
        · intro other member
          rcases List.mem_append.mp member with early | late
          · rcases header with rfl | ⟨rfl, _⟩
            · exact absurd early List.not_mem_nil
            · exact Or.inl (List.mem_singleton.mp early)
          · exact Or.inr late
      · refine ⟨[retention.header, entry], [(rotation.archive retention.last).getD []], ?_, ?_, ?_⟩
        · rw [after]
          exact kept.roll full.1 full.2 [entry]
        · rw [List.filterMap_cons_none plain]
          rfl
        · intro other member
          exact List.mem_cons.mp member

/-- The order is kept and only whole oldest volumes are lost in every run. -/
theorem Kept.play (kept : Kept retention initial written rotation.archive lost) (events : List (Event Entry)) :
    ∃ added gone, Kept retention initial (written ++ added) (Peakwork.play (Rotation.next retention) rotation events).archive
        (lost ++ gone) ∧
      added.filterMap item = (events.flatMap Event.entries).filterMap item ∧
      ∀ entry ∈ added, entry = retention.header ∨ entry ∈ events.flatMap Event.entries := by
  induction events generalizing rotation written lost with
  | nil =>
      refine ⟨[], [], ?_, rfl, fun other none_ => absurd none_ List.not_mem_nil⟩
      rw [List.append_nil, List.append_nil]
      exact kept
  | cons event rest ih =>
      obtain ⟨first, gone, now, items, from_⟩ := kept.next plain event
      obtain ⟨second, more, later, others, behind⟩ := ih now
      refine ⟨first ++ second, gone ++ more, ?_, ?_, ?_⟩
      · rw [← List.append_assoc, ← List.append_assoc]
        exact later
      · rw [List.filterMap_append, items, others, List.flatMap_cons, List.filterMap_append]
      · intro entry member
        rw [List.flatMap_cons, List.mem_append]
        rcases List.mem_append.mp member with early | late
        · exact (from_ entry early).imp_right Or.inl
        · exact (behind entry late).imp_right Or.inr

end Contents

section Sizes

variable {Entry : Type} {retention : Retention Entry} {rotation : Rotation Entry} {archive : Archive Entry}
  {bound more longest reopened : Nat}

def Within (retention : Retention Entry) (bound : Nat) (archive : Archive Entry) : Prop :=
  ∀ number, number ≤ retention.last → volumeSize retention archive number ≤ bound

theorem Within.append (within : Within retention bound archive) (added : List Entry) (grows : bound ≤ more)
    (newest : volumeSize retention archive 0 + (added.map retention.size).sum ≤ more) : Within retention more (archive.append added) := by
  intro number below
  rcases Nat.eq_zero_or_pos number with rfl | older
  · rw [volumeSize_append_zero]
    exact newest
  · rw [volumeSize_append_other added (by omega)]
    exact (within number below).trans grows

theorem volumeSize_roll_zero : volumeSize retention (roll retention archive) 0 = 0 := by
  rw [volumeSize, roll_zero]
  rfl

theorem Within.roll (within : Within retention bound archive) : Within retention bound (roll retention archive) := by
  intro number below
  rcases Nat.eq_zero_or_pos number with rfl | older
  · rw [volumeSize_roll_zero]
    exact Nat.zero_le bound
  · obtain ⟨number, rfl⟩ := Nat.exists_eq_add_of_le' older
    rw [volumeSize, roll_succ (by omega)]
    exact within number (by omega)

/-- Each life can put one entry into a volume that is full. -/
def Bounded (retention : Retention Entry) (bound longest reopened : Nat) (rotation : Rotation Entry) : Prop :=
  Within retention (bound + longest * (reopened + rotation.opened.toNat)) rotation.archive

theorem Bounded.next (rolls : 0 < retention.last) (limited : retention.limit ≤ bound) (headed : retention.size retention.header ≤ bound)
    (bounded : Bounded retention bound longest reopened rotation) (event : Event Entry)
    (short : ∀ entry ∈ event.entries, retention.size entry ≤ longest) :
    Bounded retention bound longest (reopened + event.reopens) (next retention rotation event) := by
  have once : rotation.opened.toNat ≤ 1 := Bool.toNat_le _
  have grows : bound + longest * (reopened + rotation.opened.toNat) ≤ bound + longest * (reopened + 1) :=
    Nat.add_le_add_left (Nat.mul_le_mul_left longest (by omega)) bound
  cases event with
  | reopen => exact fun number below => (bounded number below).trans grows
  | add entry =>
      have small : retention.size entry ≤ longest := short entry (List.mem_singleton_self entry)
      have one : longest ≤ longest * (reopened + 1) := Nat.le_mul_of_pos_right longest (Nat.succ_pos reopened)
      show Within retention (bound + longest * (reopened + 1)) (Rotation.next retention rotation (.add entry)).archive
      rcases @next_add _ retention rotation entry with ⟨added, after, header, opened⟩ | ⟨_, _, after⟩
      · rw [after]
        apply bounded.append _ grows
        rw [List.map_append, List.sum_append, List.map_singleton, List.sum_singleton]
        rcases header with rfl | ⟨rfl, empty⟩
        · cases running : rotation.opened with
          | false =>
              have before := bounded 0 (Nat.zero_le _)
              rw [running] at before
              have more : longest * (reopened + 1) = longest * reopened + longest := Nat.mul_succ _ _
              simp only [List.map_nil, List.sum_nil, Bool.toNat_false, Nat.add_zero] at before ⊢
              omega
          | true =>
              have room := (opened running).2
              simp only [List.map_nil, List.sum_nil]
              omega
        · rw [List.map_singleton, List.sum_singleton]
          omega
      · rw [after]
        apply bounded.roll.append _ grows
        rw [volumeSize_roll_zero]
        simp only [List.map_cons, List.map_nil, List.sum_cons, List.sum_nil]
        omega

theorem Bounded.play (rolls : 0 < retention.last) (limited : retention.limit ≤ bound) (headed : retention.size retention.header ≤ bound)
    (bounded : Bounded retention bound longest reopened rotation) (events : List (Event Entry))
    (short : ∀ entry ∈ events.flatMap Event.entries, retention.size entry ≤ longest) :
    Bounded retention bound longest (reopened + (events.map Event.reopens).sum) (Peakwork.play (Rotation.next retention) rotation events) := by
  induction events generalizing rotation reopened with
  | nil => exact bounded
  | cons event rest ih =>
      rw [List.flatMap_cons] at short
      rw [List.map_cons, List.sum_cons, ← Nat.add_assoc]
      apply ih
      · exact bounded.next rolls limited headed event fun entry member => short entry (List.mem_append_left _ member)
      · exact fun entry member => short entry (List.mem_append_right _ member)

end Sizes

section Short

variable {Entry : Type} (retention : Retention Entry)

/-- In such a life at most one entry is added. -/
def shortLife (life : Option Entry) : List (Event Entry) := life.toList.map .add ++ [.reopen]

variable {retention} {rotation : Rotation Entry} {Item : Type} {item : Entry → Option Item}

/-- No volume is moved on while each life adds at most one entry. -/
theorem play_shortLives (plain : item retention.header = none) (shut : rotation.opened = false) (lives : List (Option Entry)) :
    ∃ added, (play (next retention) rotation (lives.flatMap shortLife)).archive.entries 1 = rotation.archive.entries 1 ++ added ∧
      added.filterMap item = lives.reduceOption.filterMap item ∧
      (∀ entry ∈ added, entry = retention.header ∨ entry ∈ lives.reduceOption) ∧
      ∀ number, number ≠ 0 → (play (next retention) rotation (lives.flatMap shortLife)).archive number = rotation.archive number := by
  induction lives generalizing rotation with
  | nil => exact ⟨[], (List.append_nil _).symm, rfl, fun entry none_ => absurd none_ List.not_mem_nil, fun _ _ => rfl⟩
  | cons life rest ih =>
      rw [List.flatMap_cons, play_append]
      cases life with
      | none => exact ih rfl
      | some entry =>
          obtain ⟨later, newest, there, from_, others⟩ := @ih ⟨false, (next retention rotation (.add entry)).archive⟩ rfl
          have first : (next retention rotation (.add entry)).archive =
              rotation.archive.append (heads retention rotation.archive ++ [entry]) := by
            rw [next, if_pos shut, Files.append_append]
          have run : play (next retention) rotation (shortLife (some entry)) = ⟨false, (next retention rotation (.add entry)).archive⟩ := rfl
          rw [run]
          refine ⟨heads retention rotation.archive ++ [entry] ++ later, ?_, ?_, ?_, fun number older => ?_⟩
          · rw [newest, first, Files.entries_append, List.append_assoc]
          · have none_ : (heads retention rotation.archive).filterMap item = [] := by
              rw [heads]
              split
              · rw [List.filterMap_cons_none plain, List.filterMap_nil]
              · rfl
            rw [List.reduceOption_cons_of_some, List.append_assoc, List.filterMap_append, none_, List.nil_append,
              List.singleton_append, List.filterMap_cons, List.filterMap_cons, there]
          · intro other member
            rw [List.reduceOption_cons_of_some]
            rcases List.mem_append.mp member with early | late
            · rcases List.mem_append.mp early with head | here
              · exact Or.inl (eq_header_of_mem head)
              · exact Or.inr (List.mem_cons.mpr (Or.inl (List.mem_singleton.mp here)))
            · exact (from_ other late).imp_right (List.mem_cons_of_mem entry)
          · rw [others number older, first, Files.append_other _ older]

end Short

end Rotation

end Peakwork
