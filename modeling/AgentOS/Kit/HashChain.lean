import Mathlib.Data.List.Induction
import Mathlib.Data.List.Forall2

/-!
# Hash chains over framed fields

A record is hashed as a sequence of fields, each behind its length.  `frames_inj` says that
no two sequences of equally many fields are written alike, whatever the fields hold.

A chain is a list of rows in which every row fits the hash of the row before it, the first
one fitting the hash the chain begins with.  `Linked.concat` is how a chain grows, and
`Linked.forall₂` is what a chain commits to: where the hash of a row determines the row and
the hash before it, and no row hashes to the beginning, two chains with one last hash agree
row by row.
-/

namespace AgentOS.Kit

open List

section Frames

variable {α : Type} (digits : Nat → List α) (sep : α)

/-- A field behind its length. -/
def frame (value : List α) : List α := digits value.length ++ sep :: value

/-- Fields one after the other. -/
def frames (fields : List (List α)) : List α := fields.flatMap (frame digits sep)

variable {digits : Nat → List α} {sep : α}

theorem append_sep_inj {u v s t : List α} (hu : sep ∉ u) (hv : sep ∉ v)
    (h : u ++ sep :: s = v ++ sep :: t) : u = v ∧ s = t := by
  induction u generalizing v with
  | nil =>
    cases v with
    | nil => exact ⟨rfl, (cons.inj h).2⟩
    | cons b v => exact absurd (cons.inj h).1 fun hb => hv (hb ▸ mem_cons_self)
  | cons a u ih =>
    cases v with
    | nil => exact absurd (cons.inj h).1.symm fun ha => hu (ha ▸ mem_cons_self)
    | cons b v =>
      obtain ⟨rfl, htail⟩ := cons.inj h
      obtain ⟨rfl, rfl⟩ := ih (fun hmem => hu (mem_cons_of_mem _ hmem))
        (fun hmem => hv (mem_cons_of_mem _ hmem)) htail
      exact ⟨rfl, rfl⟩

variable (hdigits : Function.Injective digits) (hsep : ∀ n, sep ∉ digits n)

include hdigits hsep in
theorem frame_append_inj {a b s t : List α}
    (h : frame digits sep a ++ s = frame digits sep b ++ t) : a = b ∧ s = t := by
  simp only [frame, append_assoc, cons_append] at h
  obtain ⟨hlength, hrest⟩ := append_sep_inj (hsep _) (hsep _) h
  exact append_inj hrest (hdigits hlength)

include hdigits hsep in
theorem frames_inj {xs ys : List (List α)} (hlength : xs.length = ys.length)
    (h : frames digits sep xs = frames digits sep ys) : xs = ys := by
  induction xs generalizing ys with
  | nil => exact (length_eq_zero_iff.mp hlength.symm).symm
  | cons x xs ih =>
    cases ys with
    | nil => cases hlength
    | cons y ys =>
      obtain ⟨rfl, hrest⟩ := frame_append_inj hdigits hsep h
      rw [ih (Nat.succ.inj hlength) hrest]

end Frames

section Chains

variable {H R : Type} (fits : H → R → Prop) (hash : R → H)

/-- Every row fits the hash before it. -/
def Linked : H → List R → Prop
  | _, [] => True
  | h, r :: rows => fits h r ∧ Linked (hash r) rows

/-- The hash after some rows. -/
def tip (h : H) (rows : List R) : H := rows.foldl (fun _ r => hash r) h

variable {fits hash} {h g : H} {r : R} {rows rows' : List R}

@[simp] theorem tip_nil : tip hash h [] = h := rfl

@[simp] theorem tip_concat : tip hash h (rows ++ [r]) = hash r := by
  simp [tip]

theorem Linked.concat : Linked fits hash h (rows ++ [r]) ↔
    Linked fits hash h rows ∧ fits (tip hash h rows) r := by
  induction rows generalizing h with
  | nil => simp [Linked]
  | cons s rows ih =>
    simp only [cons_append, Linked, ih, and_assoc]
    rfl

theorem Linked.exists_fits (hrows : Linked fits hash h rows) (hr : r ∈ rows) : ∃ h', fits h' r := by
  induction rows generalizing h with
  | nil => cases hr
  | cons s rows ih =>
    rcases mem_cons.mp hr with rfl | hr
    · exact ⟨h, hrows.1⟩
    · exact ih hrows.2 hr

theorem Linked.forall₂ {same : R → R → Prop} (hgenesis : ∀ h r, fits h r → hash r ≠ g)
    (hinj : ∀ r ∈ rows, ∀ r' ∈ rows', ∀ h h', fits h r → fits h' r' → hash r = hash r' →
      h = h' ∧ same r r') (hrows : Linked fits hash g rows) (hrows' : Linked fits hash g rows')
    (htip : tip hash g rows = tip hash g rows') : Forall₂ same rows rows' := by
  -- the last rows agree, so the hashes before them do, and so on to the first
  induction rows using reverseRecOn generalizing rows' with
  | nil =>
    cases rows' using reverseRecOn with
    | nil => exact .nil
    | append_singleton rows' r' =>
      rw [tip_concat] at htip
      exact absurd htip.symm (hgenesis _ _ (Linked.concat.mp hrows').2)
  | append_singleton rows r ih =>
    obtain ⟨hrows, hfits⟩ := Linked.concat.mp hrows
    cases rows' using reverseRecOn with
    | nil =>
      rw [tip_concat] at htip
      exact absurd htip (hgenesis _ _ hfits)
    | append_singleton rows' r' =>
      obtain ⟨hrows', hfits'⟩ := Linked.concat.mp hrows'
      rw [tip_concat, tip_concat] at htip
      obtain ⟨hbefore, hsame⟩ := hinj r (by simp) r' (by simp) _ _ hfits hfits' htip
      refine rel_append (ih ?_ hrows hrows' hbefore) (.cons hsame .nil)
      intro s hs s' hs'
      exact hinj s (mem_append_left _ hs) s' (mem_append_left _ hs')

end Chains

end AgentOS.Kit
