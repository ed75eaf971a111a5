import Mathlib.Data.List.Nodup
import Mathlib.Logic.Function.Basic

/-!
# Intrusive doubly linked lists

The links live in the nodes: a list is a head, a tail and two pointer maps that
are total, so a node that is not linked still has (stale) pointers.  `Rep l q`
says that the links `l` represent the queue `q`: following `next` from the head
visits `q` in order and ends in `none`, following `prev` from the tail visits `q`
backwards and ends in `none`.  Nothing is said of the pointers of other nodes.

`pushBack`, `unlink` and `popFront` are the pointer operations; `Rep.pushBack`,
`Rep.unlink` and `Rep.popFront` are their meaning on queues.
-/

namespace IntrusiveList

open Function

variable {K : Type*}

/-! ## Segments -/

/-- Following `f` from `p` visits exactly `ks`, in order, and then stands at `r`. -/
def Seg (f : K → Option K) (p : Option K) : List K → Option K → Prop
  | [], r => p = r
  | k :: ks, r => p = some k ∧ Seg f (f k) ks r

section Seg

variable {f : K → Option K} {p r : Option K} {k : K} {ks ls : List K}

@[simp] theorem seg_nil : Seg f p [] r ↔ p = r := Iff.rfl

@[simp] theorem seg_cons : Seg f p (k :: ks) r ↔ p = some k ∧ Seg f (f k) ks r := Iff.rfl

theorem seg_append : Seg f p (ks ++ ls) r ↔ ∃ m, Seg f p ks m ∧ Seg f m ls r := by
  induction ks generalizing p with
  | nil => simp
  | cons k ks ih => simp [ih, and_assoc]

/-- A segment that ends at no node starts at its first node. -/
theorem Seg.start_eq (h : Seg f p ks none) : p = ks.head? := by
  cases ks with
  | nil => exact h
  | cons k ks => exact h.1

/-- The keys of a segment that ends are those met on the way. -/
theorem Seg.unique (h : Seg f p ks none) (h' : Seg f p ls none) : ks = ls := by
  induction ks generalizing p ls with
  | nil =>
    subst h
    cases ls with
    | nil => rfl
    | cons l ls => exact absurd h'.1 (by simp)
  | cons k ks ih =>
    obtain ⟨rfl, h⟩ := h
    cases ls with
    | nil => exact absurd h' (by simp)
    | cons l ls =>
      obtain ⟨hkl, h'⟩ := h'
      cases hkl
      rw [ih h h']

theorem Seg.step_eq (h : Seg f p (ls ++ k :: ks) none) : f k = ks.head? := by
  obtain ⟨m, -, -, hk⟩ := seg_append.1 h
  exact hk.start_eq

variable [DecidableEq K] {v : Option K}

theorem seg_update_of_notMem (hk : k ∉ ks) : Seg (update f k v) p ks r ↔ Seg f p ks r := by
  induction ks generalizing p with
  | nil => rfl
  | cons l ks ih =>
    have hl : l ≠ k := fun e => hk (e ▸ List.mem_cons_self)
    rw [seg_cons, seg_cons, update_of_ne hl, ih fun h => hk (List.mem_cons_of_mem l h)]

/-- Rewriting the pointer of the last node moves the end of the segment. -/
theorem Seg.update_last (h : Seg f p (ks ++ [k]) r) (hk : k ∉ ks) (v : Option K) :
    Seg (update f k v) p (ks ++ [k]) v := by
  obtain ⟨m, hks, hm, -⟩ := seg_append.1 h
  refine seg_append.2 ⟨m, (seg_update_of_notMem hk).2 hks, hm, ?_⟩
  exact update_self k v f

/-- Cutting `d` out of a segment: the pointer of the node before it, which the opposite
pointer map `g` knows, or else the start of the segment, is redirected behind `d`. -/
theorem Seg.cut {g : K → Option K} {d : K} (h : Seg f p (ks ++ d :: ls) none)
    (hn : (ks ++ d :: ls).Nodup) (hg : g d = ks.getLast?) :
    Seg (if p = some d then f else
        match g d with
        | none => f
        | some z => update f z (f d))
      (if p = some d then f d else p) (ks ++ ls) none := by
  rcases List.eq_nil_or_concat ks with rfl | ⟨zs, z, rfl⟩
  · obtain ⟨hp, hls⟩ := h
    rw [if_pos hp, if_pos hp]
    exact hls
  · rw [List.concat_eq_append] at h hn hg ⊢
    have hz : z ∉ zs ∧ z ∉ ls ∧ p ≠ some d := by
      rw [h.start_eq]
      simp only [List.nodup_append, List.nodup_cons, List.mem_append, List.mem_cons] at hn
      refine ⟨fun hm => hn.1.2.2 z hm z (by simp) rfl, fun hm => ?_, fun e => ?_⟩
      · exact hn.2.2 z (Or.inr (by simp)) z (Or.inr hm) rfl
      · refine hn.2.2 d ?_ d (Or.inl rfl) rfl
        cases zs <;> simp_all
    rw [if_neg hz.2.2, if_neg hz.2.2, hg, List.getLast?_concat]
    obtain ⟨m, hpre, -, hpost⟩ := seg_append.1 h
    exact seg_append.2 ⟨f d, hpre.update_last hz.1 (f d), (seg_update_of_notMem hz.2.1).2 hpost⟩

end Seg

/-! ## Links and the queue they represent -/

/-- The pointers of an intrusive list. -/
structure Links (K : Type*) where
  head : Option K
  tail : Option K
  next : K → Option K
  prev : K → Option K

/-- The links represent the queue `q`. -/
structure Rep (l : Links K) (q : List K) : Prop where
  nodup : q.Nodup
  forward : Seg l.next l.head q none
  backward : Seg l.prev l.tail q.reverse none

namespace Rep

variable {l : Links K} {q xs ys : List K} {d : K}

theorem head_eq (h : Rep l q) : l.head = q.head? := h.forward.start_eq

theorem unique {q' : List K} (h : Rep l q) (h' : Rep l q') : q = q' := h.forward.unique h'.forward

theorem tail_eq (h : Rep l q) : l.tail = q.getLast? := by
  rw [h.backward.start_eq, List.head?_reverse]

theorem next_eq (h : Rep l (xs ++ d :: ys)) : l.next d = ys.head? := h.forward.step_eq

theorem prev_eq (h : Rep l (xs ++ d :: ys)) : l.prev d = xs.getLast? := by
  have hb := h.backward
  rw [List.reverse_append, List.reverse_cons, List.append_assoc] at hb
  exact hb.step_eq.trans List.head?_reverse

theorem head_eq_none_iff (h : Rep l q) : l.head = none ↔ q = [] := by
  rw [h.head_eq, List.head?_eq_none_iff]

theorem tail_eq_none_iff (h : Rep l q) : l.tail = none ↔ q = [] := by
  rw [h.tail_eq, List.getLast?_eq_none_iff]

/-- A node with a predecessor is the predecessor's successor. -/
theorem next_of_prev (h : Rep l (xs ++ d :: ys)) {p : K} (hp : l.prev d = some p) :
    l.next p = some d := by
  rw [h.prev_eq] at hp
  obtain ⟨zs, rfl⟩ := List.getLast?_eq_some_iff.1 hp
  rw [List.append_assoc] at h
  exact h.next_eq

/-- A node with a successor is the successor's predecessor. -/
theorem prev_of_next (h : Rep l (xs ++ d :: ys)) {s : K} (hs : l.next d = some s) :
    l.prev s = some d := by
  rw [h.next_eq] at hs
  obtain ⟨zs, rfl⟩ := List.head?_eq_some_iff.1 hs
  have h' : Rep l ((xs ++ [d]) ++ s :: zs) := by simpa using h
  rw [h'.prev_eq]
  simp

theorem head_eq_some_iff (h : Rep l (xs ++ d :: ys)) : l.head = some d ↔ xs = [] := by
  rw [h.head_eq]
  cases xs with
  | nil => simp
  | cons x xs =>
    have hne : x ≠ d := by
      have hn := h.nodup
      simp only [List.cons_append, List.nodup_cons, List.mem_append, List.mem_cons] at hn
      exact fun e => hn.1 (Or.inr (Or.inl e))
    simp [hne]

theorem tail_eq_some_iff (h : Rep l (xs ++ d :: ys)) : l.tail = some d ↔ ys = [] := by
  rw [h.tail_eq]
  rcases List.eq_nil_or_concat ys with rfl | ⟨zs, z, rfl⟩
  · simp
  · have hne : z ≠ d := by
      have hn := h.nodup
      rw [List.concat_eq_append, List.nodup_append] at hn
      have hd := (List.nodup_cons.1 hn.2.1).1
      exact fun e => hd (by simp [e])
    rw [List.concat_eq_append, ← List.cons_append, ← List.append_assoc, List.getLast?_append]
    simp [hne]

theorem congr {l' : Links K} (h : Rep l q) (e : l' = l) : Rep l' q := e ▸ h

/-- No link is set. -/
theorem empty {nx pv : K → Option K} : Rep ⟨none, none, nx, pv⟩ ([] : List K) :=
  ⟨List.nodup_nil, rfl, rfl⟩

end Rep

/-! ## The pointer operations -/

namespace Links

variable [DecidableEq K]

def setNext (l : Links K) (k : K) (v : Option K) : Links K :=
  { l with next := update l.next k v }

def setPrev (l : Links K) (k : K) (v : Option K) : Links K :=
  { l with prev := update l.prev k v }

/-- Link `d` in behind the tail. -/
def pushBack (l : Links K) (d : K) : Links K :=
  let l' := (l.setPrev d l.tail).setNext d none
  { (match l.tail with
      | none => { l' with head := some d }
      | some t => l'.setNext t (some d)) with tail := some d }

/-- Redirect the pointer that leads to `d`, from its predecessor or from the head. -/
def dropNext (l : Links K) (d : K) : Links K :=
  if l.head = some d then { l with head := l.next d } else
    match l.prev d with
    | none => l
    | some p => l.setNext p (l.next d)

/-- Redirect the pointer that leads back to `d`, from its successor or from the tail. -/
def dropPrev (l : Links K) (d : K) : Links K :=
  if l.tail = some d then { l with tail := l.prev d } else
    match l.next d with
    | none => l
    | some s => l.setPrev s (l.prev d)

/-- Take `d` out, leaving its own pointers as they are. -/
def unlink (l : Links K) (d : K) : Links K :=
  (l.dropNext d).dropPrev d

/-- Take the first node out. -/
def popFront (l : Links K) : Links K :=
  match l.head with
  | none => l
  | some h =>
    { (match l.next h with
        | none => { l with tail := none }
        | some s => l.setPrev s none) with head := l.next h }

end Links

namespace Rep

variable [DecidableEq K] {l : Links K} {q xs ys : List K} {d : K}

/-- Linking in behind the tail appends to the queue. -/
theorem pushBack (h : Rep l q) (hd : d ∉ q) : Rep (l.pushBack d) (q ++ [d]) := by
  have hdr : d ∉ q.reverse := fun hm => hd (List.mem_reverse.1 hm)
  refine ⟨List.nodup_append.2 ⟨h.nodup, by simp, ?_⟩, ?_, ?_⟩
  · rintro a ha b hb rfl
    rw [List.mem_singleton.1 hb] at ha
    exact hd ha
  · rcases List.eq_nil_or_concat q with rfl | ⟨zs, z, rfl⟩
    · have ht : l.tail = none := h.tail_eq_none_iff.2 rfl
      simp [Links.pushBack, ht, Links.setNext, Links.setPrev]
    · rw [List.concat_eq_append] at h hd ⊢
      have ht : l.tail = some z := h.tail_eq.trans (by simp)
      have hz : z ∉ zs := by
        have hn := h.nodup
        rw [List.nodup_append] at hn
        exact fun hm => hn.2.2 z hm z (by simp) rfl
      have hne : d ≠ z := fun e => hd (by simp [e])
      have hseg : Seg (update l.next d none) l.head (zs ++ [z]) none :=
        (seg_update_of_notMem hd).2 h.forward
      simp only [Links.pushBack, ht, Links.setNext, Links.setPrev]
      refine seg_append.2 ⟨some d, hseg.update_last hz (some d), rfl, ?_⟩
      rw [update_of_ne hne, update_self, seg_nil]
  · rw [List.reverse_append]
    have hprev : (l.pushBack d).prev = update l.prev d l.tail := by
      unfold Links.pushBack
      cases l.tail <;> rfl
    have htail : (l.pushBack d).tail = some d := rfl
    rw [hprev, htail]
    refine ⟨rfl, ?_⟩
    rw [update_self]
    exact (seg_update_of_notMem hdr).2 h.backward

/-! The fields of the two halves of `unlink`. -/

theorem dropNext_head :
    (l.dropNext d).head = if l.head = some d then l.next d else l.head := by
  unfold Links.dropNext
  split
  · rfl
  · cases l.prev d <;> rfl

theorem dropNext_next :
    (l.dropNext d).next = if l.head = some d then l.next else
      match l.prev d with
      | none => l.next
      | some p => update l.next p (l.next d) := by
  unfold Links.dropNext
  split
  · rfl
  · cases l.prev d <;> rfl

@[simp] theorem dropNext_tail : (l.dropNext d).tail = l.tail := by
  unfold Links.dropNext
  split
  · rfl
  · cases l.prev d <;> rfl

@[simp] theorem dropNext_prev : (l.dropNext d).prev = l.prev := by
  unfold Links.dropNext
  split
  · rfl
  · cases l.prev d <;> rfl

theorem dropNext_next_self (h : l.prev d ≠ some d) : (l.dropNext d).next d = l.next d := by
  rw [dropNext_next]
  split
  · rfl
  · cases hp : l.prev d with
    | none => rfl
    | some p =>
      have hne : d ≠ p := by
        rintro rfl
        exact h hp
      exact update_of_ne hne _ _

theorem dropPrev_tail :
    (l.dropPrev d).tail = if l.tail = some d then l.prev d else l.tail := by
  unfold Links.dropPrev
  split
  · rfl
  · cases l.next d <;> rfl

theorem dropPrev_prev :
    (l.dropPrev d).prev = if l.tail = some d then l.prev else
      match l.next d with
      | none => l.prev
      | some s => update l.prev s (l.prev d) := by
  unfold Links.dropPrev
  split
  · rfl
  · cases l.next d <;> rfl

@[simp] theorem dropPrev_head : (l.dropPrev d).head = l.head := by
  unfold Links.dropPrev
  split
  · rfl
  · cases l.next d <;> rfl

@[simp] theorem dropPrev_next : (l.dropPrev d).next = l.next := by
  unfold Links.dropPrev
  split
  · rfl
  · cases l.next d <;> rfl

/-- Taking a node out deletes it from the queue, wherever it stands. -/
theorem unlink (h : Rep l (xs ++ d :: ys)) : Rep (l.unlink d) (xs ++ ys) := by
  have hnotMem : d ∉ xs := by
    have hn := h.nodup
    rw [List.nodup_append] at hn
    exact fun hm => hn.2.2 d hm d (by simp) rfl
  have hprev : l.prev d ≠ some d := by
    rw [h.prev_eq]
    exact fun e => hnotMem (List.mem_of_getLast? e)
  refine ⟨h.nodup.sublist (List.Sublist.append_left (List.sublist_cons_self d ys) xs), ?_, ?_⟩
  · rw [Links.unlink, dropPrev_head, dropPrev_next, dropNext_head, dropNext_next]
    exact h.forward.cut h.nodup h.prev_eq
  · have hb : Seg l.prev l.tail (ys.reverse ++ d :: xs.reverse) none := by
      simpa using h.backward
    have hn : (ys.reverse ++ d :: xs.reverse).Nodup := by
      simpa using List.nodup_reverse.2 h.nodup
    rw [Links.unlink, dropPrev_tail, dropPrev_prev, dropNext_tail, dropNext_prev,
      dropNext_next_self hprev, List.reverse_append]
    exact hb.cut hn (h.next_eq.trans List.getLast?_reverse.symm)

/-- Taking the first node out. -/
theorem popFront (h : Rep l (d :: q)) : Rep l.popFront q := by
  have hhead : l.head = some d := h.head_eq
  have h₀ : Rep l ([] ++ d :: q) := h
  have hnext : l.next d = q.head? := h₀.next_eq
  obtain ⟨-, hforward⟩ := h.forward
  refine ⟨(List.nodup_cons.1 h.nodup).2, ?_, ?_⟩
  · have hpop : l.popFront.next = l.next ∧ l.popFront.head = l.next d := by
      simp only [Links.popFront, hhead]
      cases l.next d <;> simp [Links.setPrev]
    rw [hpop.1, hpop.2]
    exact hforward
  · cases q with
    | nil => simp [Links.popFront, hhead, hnext]
    | cons s q =>
      have hb : Seg l.prev l.tail ((q.reverse ++ [s]) ++ [d]) none := by
        simpa using h.backward
      have hs : s ∉ q.reverse := by
        have hn := (List.nodup_cons.1 h.nodup).2
        simpa using (List.nodup_cons.1 hn).1
      obtain ⟨m, hpre, -⟩ := seg_append.1 hb
      simp only [Links.popFront, hhead, hnext, List.head?_cons, Links.setPrev, List.reverse_cons]
      exact hpre.update_last hs none

end Rep

end IntrusiveList
