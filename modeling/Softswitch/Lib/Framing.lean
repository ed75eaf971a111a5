import Mathlib.Data.List.Basic

/-!
# Frames with a length

A frame is a symbol that stands for a length, and so many symbols behind it.  A reader that takes
one symbol after the other finds the frames again, and at any time it has read the first of them.
-/

namespace Framing

variable {α : Type _} {len : α → Nat} {fs : List (List α)} {xs ys : List α} {x : α}

/-- A symbol, and as many as it says. -/
structure Frame (len : α → Nat) where
  head : α
  body : List α
  length_eq : body.length = len head

def Frame.symbols (f : Frame len) : List α := f.head :: f.body

/-- The frames that have been read, and the symbols of the next one so far. -/
structure Reader (α : Type _) where
  frames : List (List α)
  rest : List α
deriving DecidableEq

namespace Reader

/-- The symbols `rest` are a frame, if they are as many as the first one says. -/
def close (len : α → Nat) (fs : List (List α)) : List α → Reader α
  | [] => ⟨fs, []⟩
  | y :: ys => if ys.length = len y then ⟨fs ++ [ys], []⟩ else ⟨fs, y :: ys⟩

def step (len : α → Nat) (r : Reader α) (x : α) : Reader α := close len r.frames (r.rest ++ [x])

end Reader

open Reader

/-- Read all of the symbols. -/
def read (len : α → Nat) (xs : List α) : Reader α := xs.foldl (step len) ⟨[], []⟩

/-- A part of a frame is kept. -/
theorem foldl_step_part (h : ys.length + xs.length < len x) :
    xs.foldl (step len) ⟨fs, x :: ys⟩ = ⟨fs, x :: (ys ++ xs)⟩ := by
  induction xs generalizing ys with
  | nil => rw [List.append_nil]; rfl
  | cons z zs ih =>
    rw [List.length_cons] at h
    have hne : (ys ++ [z]).length ≠ len x := by
      rw [List.length_append, List.length_singleton]
      omega
    have hstep : step len ⟨fs, x :: ys⟩ z = ⟨fs, x :: (ys ++ [z])⟩ := if_neg hne
    rw [List.foldl_cons, hstep, ih, List.append_assoc]
    · rfl
    · rw [List.length_append, List.length_singleton]
      omega

/-- A frame is read as a whole. -/
theorem foldl_step_frame (f : Frame len) :
    f.symbols.foldl (step len) ⟨fs, []⟩ = ⟨fs ++ [f.body], []⟩ := by
  obtain ⟨x, body, hlength⟩ := f
  show body.foldl (step len) (close len fs [x]) = ⟨fs ++ [body], []⟩
  rcases List.eq_nil_or_concat body with rfl | ⟨zs, z, rfl⟩
  · exact if_pos hlength
  · rw [List.concat_eq_append, List.length_append, List.length_singleton] at hlength
    have hopen : close len fs [x] = ⟨fs, [x]⟩ := if_neg (by rw [← hlength]; simp)
    have hpart : zs.foldl (step len) ⟨fs, [x]⟩ = ⟨fs, x :: zs⟩ :=
      foldl_step_part (by rw [List.length_nil, ← hlength]; omega)
    rw [List.concat_eq_append, List.foldl_append, hopen, hpart]
    exact if_pos (List.length_append.trans hlength)

/-- The reader finds the frames. -/
theorem foldl_step_frames (frames : List (Frame len)) :
    (frames.flatMap Frame.symbols).foldl (step len) ⟨fs, []⟩ =
      ⟨fs ++ frames.map Frame.body, []⟩ := by
  induction frames generalizing fs with
  | nil => rw [List.map_nil, List.append_nil]; rfl
  | cons f frames ih =>
    rw [List.flatMap_cons, List.foldl_append, foldl_step_frame, ih, List.append_assoc]
    rfl

theorem read_frames (frames : List (Frame len)) :
    read len (frames.flatMap Frame.symbols) = ⟨frames.map Frame.body, []⟩ :=
  foldl_step_frames frames

/-- A frame that has been read stays. -/
theorem frames_prefix_foldl (r : Reader α) :
    r.frames <+: (xs.foldl (step len) r).frames := by
  induction xs generalizing r with
  | nil => exact List.prefix_rfl
  | cons x xs ih =>
    have hclose : ∀ ys, r.frames <+: (close len r.frames ys).frames := by
      intro ys
      cases ys with
      | nil => exact List.prefix_rfl
      | cons y ys =>
        simp only [close]
        split
        · exact List.prefix_append _ _
        · exact List.prefix_rfl
    exact (hclose _).trans (ih _)

/-- What has come of the frames tells the first of them. -/
theorem read_prefix {frames : List (Frame len)} (h : xs <+: frames.flatMap Frame.symbols) :
    (read len xs).frames <+: frames.map Frame.body := by
  obtain ⟨ys, hys⟩ := h
  have hread := read_frames frames
  rw [← hys] at hread
  unfold read at *
  rw [List.foldl_append] at hread
  have hprefix := @frames_prefix_foldl _ len ys (xs.foldl (step len) ⟨[], []⟩)
  rwa [hread] at hprefix

end Framing
