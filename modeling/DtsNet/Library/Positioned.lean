import Mathlib.Data.List.Basic
import Mathlib.Data.List.TakeDrop

/-!
# Positioned — files with one position

A file is an array of a fixed length with a position in it.  Reading and writing start at the
position, move it on, and end with the file at the latest.
-/

namespace Positioned

variable {α : Type*}

structure File (α : Type*) where
  contents : List α
  pos : ℕ
  pos_le : pos ≤ contents.length

namespace File

/-- A file at its start. -/
def ofList (contents : List α) : File α :=
  { contents := contents, pos := 0, pos_le := Nat.zero_le _ }

/-- What can be read or written before the file ends. -/
def room (f : File α) : ℕ :=
  f.contents.length - f.pos

def seek (f : File α) (k : ℕ) : File α :=
  { contents := f.contents
    pos := min k f.contents.length
    pos_le := Nat.min_le_right _ _ }

/-- The contents with `bs` in the place of those at `pos`. -/
def splice (contents : List α) (pos : ℕ) (bs : List α) : List α :=
  contents.take pos ++ bs ++ contents.drop (pos + bs.length)

theorem length_splice {contents : List α} {pos : ℕ} {bs : List α}
    (h : pos + bs.length ≤ contents.length) :
    (splice contents pos bs).length = contents.length := by
  rw [splice, List.length_append, List.length_append, List.length_take, List.length_drop]
  omega

@[simp] theorem splice_nil (contents : List α) (pos : ℕ) : splice contents pos [] = contents := by
  simp [splice]

/-- Within the middle one of three pieces, only that one is changed. -/
theorem splice_append (front mid back bs : List α) {o : ℕ} (h : o + bs.length ≤ mid.length) :
    splice (front ++ (mid ++ back)) (front.length + o) bs =
      front ++ (splice mid o bs ++ back) := by
  have hdrop : front.length + o + bs.length = front.length + (o + bs.length) := Nat.add_assoc _ _ _
  rw [splice, hdrop, List.take_length_add_append, List.drop_length_add_append,
    List.take_append_of_le_length (by omega), List.drop_append_of_le_length h, splice]
  simp only [List.append_assoc]

/-- The file behind writing as much of `bs` as there is room for, and how much that is. -/
def write (f : File α) (bs : List α) : File α × ℕ :=
  let n := min bs.length f.room
  ({ contents := splice f.contents f.pos (bs.take n)
     pos := f.pos + n
     pos_le := by
      have hlen : (bs.take n).length = n := List.length_take_of_le (Nat.min_le_left _ _)
      have hroom : n ≤ f.contents.length - f.pos := Nat.min_le_right _ _
      have hpos := f.pos_le
      rw [length_splice (by omega)]
      omega },
    n)

/-- The file behind reading `size` elements, or as many as there are, and what was read. -/
def read (f : File α) (size : ℕ) : File α × List α :=
  let n := min size f.room
  ({ contents := f.contents
     pos := f.pos + n
     pos_le := by
      have hroom : n ≤ f.contents.length - f.pos := Nat.min_le_right _ _
      have hpos := f.pos_le
      omega },
    (f.contents.drop f.pos).take n)

@[simp] theorem contents_seek (f : File α) (k : ℕ) : (f.seek k).contents = f.contents := rfl

@[simp] theorem pos_seek (f : File α) (k : ℕ) : (f.seek k).pos = min k f.contents.length := rfl

@[simp] theorem contents_read (f : File α) (size : ℕ) : (f.read size).1.contents = f.contents := rfl

@[simp] theorem pos_read (f : File α) (size : ℕ) :
    (f.read size).1.pos = f.pos + min size f.room := rfl

theorem snd_read (f : File α) (size : ℕ) :
    (f.read size).2 = (f.contents.drop f.pos).take (min size f.room) := rfl

theorem length_snd_read (f : File α) (size : ℕ) : (f.read size).2.length = min size f.room := by
  rw [snd_read, List.length_take, List.length_drop]
  exact Nat.min_eq_left (Nat.min_le_right _ _)

theorem contents_write (f : File α) (bs : List α) :
    (f.write bs).1.contents = splice f.contents f.pos (bs.take (min bs.length f.room)) := rfl

@[simp] theorem pos_write (f : File α) (bs : List α) :
    (f.write bs).1.pos = f.pos + min bs.length f.room := rfl

@[simp] theorem snd_write (f : File α) (bs : List α) :
    (f.write bs).2 = min bs.length f.room := rfl

end File
end Positioned
