import Mathlib.Data.List.Infix

/-!
# Characters of one or two units

A text is sent as units, one or two to a character, and read back from the
front. If it is cut into pieces and each piece is read for itself, what
comes out is the text exactly if no cut goes through a character
(`read_pieces_iff`).
-/

namespace VodogeEdge

open List

/-- A code and its reader. A reader that starts in the middle of a
character shows something else in its place. -/
structure CharCode (χ υ δ : Type*) where
  code : χ → List υ
  shown : χ → δ
  read : List υ → List δ
  shown_injective : Function.Injective shown
  read_nil : read [] = []
  read_code : ∀ c units, read (code c ++ units) = shown c :: read units
  short : ∀ c, (∃ u, code c = [u]) ∨ ∃ u v, code c = [u, v]
  halves : ∀ c u v units, code c = [u, v] →
    ∃ d tail, d ≠ shown c ∧ read [u] ++ read (v :: units) = d :: tail

namespace CharCode

variable {χ υ δ : Type*} (C : CharCode χ υ δ)

def encode (text : List χ) : List υ := text.flatMap C.code

theorem encode_cons (c : χ) (text : List χ) : C.encode (c :: text) = C.code c ++ C.encode text :=
  flatMap_cons

theorem code_ne_nil (c : χ) : C.code c ≠ [] := by
  rcases C.short c with ⟨u, h⟩ | ⟨u, v, h⟩ <;> rw [h] <;> exact cons_ne_nil _ _

theorem read_encode (text : List χ) (units : List υ) :
    C.read (C.encode text ++ units) = text.map C.shown ++ C.read units := by
  induction text with
  | nil => rfl
  | cons c text ih => rw [encode_cons, append_assoc, read_code, ih]; rfl

theorem read_encode_self (text : List χ) : C.read (C.encode text) = text.map C.shown := by
  have h := C.read_encode text []
  rwa [C.read_nil, append_nil, append_nil] at h

/-- Units that begin with those of a text are units of a text that begins
with it. -/
theorem eq_append_of_encode {text whole : List χ} {units : List υ}
    (h : C.encode text ++ units = C.encode whole) :
    ∃ rest, whole = text ++ rest ∧ units = C.encode rest := by
  induction text generalizing whole with
  | nil => exact ⟨whole, rfl, h⟩
  | cons c text ih =>
    rw [encode_cons, append_assoc] at h
    cases whole with
    | nil => exact absurd (append_eq_nil_iff.mp h).1 (C.code_ne_nil c)
    | cons c' whole =>
      rw [encode_cons] at h
      have hread := congrArg C.read h
      rw [read_code, read_code] at hread
      obtain rfl : c = c' := C.shown_injective (List.cons.inj hread).1
      obtain ⟨rest, rfl, hrest⟩ := ih (append_cancel_left h)
      exact ⟨rest, rfl, hrest⟩

def Between (text : List χ) (front back : List υ) : Prop :=
  ∃ before after, text = before ++ after ∧ front = C.encode before ∧ back = C.encode after

def Inside (text : List χ) (front back : List υ) : Prop :=
  ∃ before c after u v, text = before ++ c :: after ∧ C.code c = [u, v]
    ∧ front = C.encode before ++ [u] ∧ back = v :: C.encode after

variable {front back : List υ} {text : List χ} {c : χ}

theorem Between.cons (h : C.Between text front back) :
    C.Between (c :: text) (C.code c ++ front) back := by
  obtain ⟨before, after, rfl, rfl, hback⟩ := h
  exact ⟨c :: before, after, rfl, (C.encode_cons c before).symm, hback⟩

theorem Inside.cons (h : C.Inside text front back) :
    C.Inside (c :: text) (C.code c ++ front) back := by
  obtain ⟨before, c', after, u, v, rfl, hcode, rfl, hback⟩ := h
  refine ⟨c :: before, c', after, u, v, rfl, hcode, ?_, hback⟩
  rw [encode_cons, append_assoc]

theorem cut_cases (h : front ++ back = C.encode text) :
    C.Between text front back ∨ C.Inside text front back := by
  induction text generalizing front with
  | nil =>
    obtain ⟨rfl, rfl⟩ := append_eq_nil_iff.mp h
    exact .inl ⟨[], [], rfl, rfl, rfl⟩
  | cons c text ih =>
    rw [encode_cons] at h
    cases front with
    | nil => exact .inl ⟨[], c :: text, rfl, rfl, h⟩
    | cons first front =>
      have hstep : ∀ front, C.Between text front back ∨ C.Inside text front back →
          C.Between (c :: text) (C.code c ++ front) back
            ∨ C.Inside (c :: text) (C.code c ++ front) back := fun _ hcut =>
        hcut.imp (.cons C) (.cons C)
      rcases C.short c with ⟨u, hcode⟩ | ⟨u, v, hcode⟩
      · rw [hcode] at h hstep
        obtain ⟨rfl, htail⟩ := List.cons.inj h
        exact hstep front (ih htail)
      · rw [hcode] at h hstep
        obtain ⟨rfl, htail⟩ := List.cons.inj h
        cases front with
        | nil => exact .inr ⟨[], c, text, first, v, rfl, hcode, rfl, htail⟩
        | cons second front =>
          obtain ⟨rfl, hrest⟩ := List.cons.inj htail
          exact hstep front (ih hrest)

/-- Pieces that are read one by one give the text exactly if each is the
code of a text. -/
theorem read_pieces_iff {pieces : List (List υ)} (hcut : pieces.flatten = C.encode text)
    (hnonempty : ∀ piece ∈ pieces, piece ≠ []) :
    pieces.flatMap C.read = text.map C.shown ↔ ∀ piece ∈ pieces, ∃ part, piece = C.encode part := by
  induction pieces generalizing text with
  | nil =>
    cases text with
    | nil => simp
    | cons c text => exact absurd (append_eq_nil_iff.mp hcut.symm).1 (C.code_ne_nil c)
  | cons piece pieces ih =>
    have hrest : ∀ piece ∈ pieces, piece ≠ [] := fun piece hpiece =>
      hnonempty piece (mem_cons_of_mem _ hpiece)
    rcases C.cut_cases hcut with ⟨before, after, rfl, rfl, hafter⟩ |
      ⟨before, c, after, u, v, rfl, hcode, rfl, hafter⟩
    · rw [flatMap_cons, read_encode_self, map_append, append_right_inj,
        ih hafter hrest, forall_mem_cons]
      exact (and_iff_right ⟨before, rfl⟩).symm
    · -- the next piece begins with the second half
      constructor
      · intro hread
        exfalso
        cases pieces with
        | nil => cases hafter
        | cons next pieces =>
          cases next with
          | nil => exact hrest [] mem_cons_self rfl
          | cons first next =>
            obtain ⟨rfl, -⟩ := List.cons.inj hafter
            obtain ⟨d, tail, hne, hhalves⟩ := C.halves c u first next hcode
            rw [flatMap_cons, flatMap_cons, read_encode, append_assoc,
              ← append_assoc (C.read [u]), hhalves, map_append] at hread
            exact hne (List.cons.inj (append_cancel_left hread)).1
      · intro hparts
        obtain ⟨part, hpart⟩ := hparts _ mem_cons_self
        rw [hpart] at hcut
        obtain ⟨rest, hwhole, -⟩ := C.eq_append_of_encode hcut
        -- `part` goes on behind `before` with `c`, whose two units are one too many
        obtain ⟨more, rfl, hmore⟩ := C.eq_append_of_encode hpart
        cases more with
        | nil => cases hmore
        | cons c' more =>
          rw [append_assoc] at hwhole
          obtain ⟨rfl, -⟩ := List.cons.inj (append_cancel_left hwhole)
          rw [encode_cons, hcode] at hmore
          cases hmore

end CharCode

end VodogeEdge
