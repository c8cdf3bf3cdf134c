import Anunix.Lib.Region
import Anunix.Lib.Stripe

/-!
# Paged memory

A list of pages of one size, read as one stretch of cells: cell `i` stands on page `i / P`, at
`i % P`. Loops that copy through it go from page boundary to page boundary; each of them is one read
or one write of the stretch, and leaves every page that is not in the list alone.
-/

namespace Paged
open Region List

variable {α ρ : Type*} [Inhabited α] (P : Nat)

/-- The page with a number, and nothing behind the last page. -/
def page (mem : ρ → Nat → α) (pages : List ρ) (k : Nat) : Nat → α :=
  pages[k]?.elim (fun _ => default) mem

/-- The stretch of cells that a list of pages makes. -/
def flat (mem : ρ → Nat → α) (pages : List ρ) (i : Nat) : α :=
  page mem pages (i / P) (i % P)

/-- The number of cells from an offset to the end of its page, or to the end of what is left. -/
def chunk (offset left : Nat) : Nat :=
  min (P - offset % P) left

section Chunk

variable {P} {offset left k : Nat}

lemma chunk_le_left : chunk P offset left ≤ left :=
  Nat.min_le_right _ _

lemma chunk_le_page : chunk P offset left ≤ P - offset % P :=
  Nat.min_le_left _ _

lemma chunk_pos [NeZero P] (h : left ≠ 0) : 0 < chunk P offset left := by
  have hmod := Nat.mod_lt offset (Nat.pos_of_ne_zero (NeZero.ne P))
  unfold chunk
  omega

lemma div_chunk (h : k < P - offset % P) : (offset + k) / P = offset / P :=
  Stripe.div_add_of_lt (by omega)

lemma mod_chunk (h : k < P - offset % P) : (offset + k) % P = offset % P + k :=
  Stripe.mod_add_of_lt (by omega)

end Chunk

section Loops

variable [DecidableEq ρ] [NeZero P]

def put (mem : ρ → Nat → α) (pages : List ρ) (k a : Nat) (l : List α) : ρ → Nat → α :=
  pages[k]?.elim mem fun p => Function.update mem p (store (mem p) a l)

def copyOut (mem : ρ → Nat → α) (pages : List ρ) (offset size : Nat) : List α :=
  if h : size = 0 then []
  else
    have : 0 < chunk P offset size := chunk_pos h
    load (page mem pages (offset / P)) (offset % P) (chunk P offset size) ++
      copyOut mem pages (offset + chunk P offset size) (size - chunk P offset size)
termination_by size

def copyIn (mem : ρ → Nat → α) (pages : List ρ) (offset : Nat) (data : List α) : ρ → Nat → α :=
  if h : data = [] then mem
  else
    have : 0 < chunk P offset data.length := chunk_pos (mt eq_nil_of_length_eq_zero h)
    copyIn (put mem pages (offset / P) (offset % P) (data.take (chunk P offset data.length))) pages
      (offset + chunk P offset data.length) (data.drop (chunk P offset data.length))
termination_by data.length
decreasing_by
  rw [length_drop]
  have := length_pos_iff.mpr h
  omega

/-- Copy cells from one list of pages to another. A chunk ends where the source or the target page
does. -/
def copyBetween (mem : ρ → Nat → α) (src : List ρ) (source : Nat) (dst : List ρ)
    (target left : Nat) : ρ → Nat → α :=
  if h : left = 0 then mem
  else
    let count := chunk P target (chunk P source left)
    have : 0 < count := chunk_pos (Nat.pos_iff_ne_zero.mp (chunk_pos h))
    copyBetween
      (put mem dst (target / P) (target % P) (load (page mem src (source / P)) (source % P) count))
      src (source + count) dst (target + count) (left - count)
termination_by left

end Loops

section Lemmas

variable {P} {mem mem' : ρ → Nat → α} {pages src dst : List ρ} {l data : List α}
  {offset size source target left n : Nat} {q : ρ}

lemma flat_congr (h : ∀ p ∈ pages, mem p = mem' p) : flat P mem pages = flat P mem' pages := by
  funext i
  unfold flat page
  cases hp : pages[i / P]? with
  | none => rfl
  | some p => exact congrFun (h p (mem_of_getElem? hp)) (i % P)

lemma flat_append (fresh : List ρ) {i : Nat} (h : i < P * pages.length) :
    flat P mem (pages ++ fresh) i = flat P mem pages i := by
  unfold flat page
  rw [getElem?_append_left (Nat.div_lt_of_lt_mul h)]

lemma load_flat_chunk (h : n ≤ P - offset % P) :
    load (flat P mem pages) offset n = load (page mem pages (offset / P)) (offset % P) n := by
  apply load_eq_load
  intro i hi
  have hlt : i < P - offset % P := Nat.lt_of_lt_of_le hi h
  unfold flat
  rw [div_chunk hlt, mod_chunk hlt]

variable [DecidableEq ρ]

omit [Inhabited α] in
lemma put_of_notMem {k a : Nat} (h : q ∉ pages) : put mem pages k a l q = mem q := by
  unfold put
  cases hp : pages[k]? with
  | none => rfl
  | some p =>
    apply Function.update_of_ne
    rintro rfl
    exact h (mem_of_getElem? hp)

lemma flat_put (hnodup : pages.Nodup) (hpage : l.length ≤ P - offset % P)
    (hend : offset + l.length ≤ P * pages.length) :
    flat P (put mem pages (offset / P) (offset % P) l) pages =
    store (flat P mem pages) offset l := by
  cases l with
  | nil =>
    have hput : put mem pages (offset / P) (offset % P) ([] : List α) = mem := by
      unfold put
      cases pages[offset / P]? with
      | none => rfl
      | some p =>
        simp only [Option.elim_some, store_nil, Function.update_eq_self]
    rw [hput, store_nil]
  | cons x l =>
    have hlen : 0 < (x :: l).length := Nat.succ_pos _
    generalize hl : x :: l = w at *
    have hlt : offset / P < pages.length := Nat.div_lt_of_lt_mul (by omega)
    have hat : pages[offset / P]? = some pages[offset / P] := getElem?_eq_getElem hlt
    funext i
    by_cases hdiv : i / P = offset / P
    · -- the page that is written
      have hsplit := Nat.div_add_mod i P
      have hsplit' := Nat.div_add_mod offset P
      rw [hdiv] at hsplit
      unfold flat page put
      rw [hdiv, hat]
      simp only [Option.elim_some, Function.update_self]
      rcases Nat.lt_or_ge i offset with hi | hi
      · rw [store_of_lt hi, store_of_lt (by omega)]
        simp only [hdiv, hat, Option.elim_some]
      · obtain ⟨k, rfl⟩ := Nat.exists_eq_add_of_le hi
        have hmod : (offset + k) % P = offset % P + k := by omega
        rcases Nat.lt_or_ge k w.length with hk | hk
        · rw [hmod, store_of_mem hk, store_of_mem hk]
        · rw [store_of_le (Nat.add_le_add_left hk offset), hmod,
            store_of_le (Nat.add_le_add_left hk (offset % P))]
          simp only [hdiv, hat, Option.elim_some]
    · -- any other page
      have hout : i < offset ∨ offset + w.length ≤ i := by
        by_contra hin
        obtain ⟨k, rfl⟩ := Nat.exists_eq_add_of_le (show offset ≤ i by omega)
        exact hdiv (div_chunk (by omega))
      rw [store_of_disjoint hout]
      unfold flat page put
      rw [hat]
      cases hp : pages[i / P]? with
      | none => rfl
      | some p =>
        obtain ⟨hlt', rfl⟩ := List.getElem?_eq_some_iff.mp hp
        have hne : pages[i / P] ≠ pages[offset / P] := fun heq =>
          hdiv ((List.Nodup.getElem_inj_iff hnodup).mp heq)
        simp only [Option.elim_some, Function.update_of_ne hne]

variable [NeZero P]

omit [DecidableEq ρ] in
lemma copyOut_eq : copyOut P mem pages offset size = load (flat P mem pages) offset size := by
  fun_induction copyOut P mem pages offset size with
  | case1 offset => rfl
  | case2 offset size h hpos ih =>
    rw [ih, ← load_flat_chunk chunk_le_page, ← load_add, Nat.add_sub_cancel' chunk_le_left]

lemma flat_copyIn (hnodup : pages.Nodup) (hend : offset + data.length ≤ P * pages.length) :
    flat P (copyIn P mem pages offset data) pages = store (flat P mem pages) offset data := by
  fun_induction copyIn P mem pages offset data with
  | case1 mem offset => exact store_nil.symm
  | case2 mem offset data h hpos ih =>
    have hle : chunk P offset data.length ≤ data.length := chunk_le_left
    have htake : (data.take (chunk P offset data.length)).length = chunk P offset data.length :=
      length_take_of_le hle
    have hrest :
      offset + chunk P offset data.length + (data.drop (chunk P offset data.length)).length ≤
        P * pages.length := by
      rw [length_drop]
      omega
    rw [ih hrest, flat_put hnodup (by rw [htake]; exact chunk_le_page) (by omega)]
    calc store (store (flat P mem pages) offset (data.take (chunk P offset data.length)))
          (offset + chunk P offset data.length) (data.drop (chunk P offset data.length))
        = store (store (flat P mem pages) offset (data.take (chunk P offset data.length)))
          (offset + (data.take (chunk P offset data.length)).length)
          (data.drop (chunk P offset data.length)) := by
            rw [htake]
      _ = store (flat P mem pages) offset data := by
            rw [store_append, take_append_drop]

omit [Inhabited α] in
lemma copyIn_of_notMem (h : q ∉ pages) : copyIn P mem pages offset data q = mem q := by
  fun_induction copyIn P mem pages offset data with
  | case1 mem offset => rfl
  | case2 mem offset data hne hpos ih => rw [ih, put_of_notMem h]

lemma copyBetween_of_notMem (h : q ∉ dst) :
    copyBetween P mem src source dst target left q = mem q := by
  fun_induction copyBetween P mem src source dst target left with
  | case1 mem source target => rfl
  | case2 mem source target left hne count hpos ih => rw [ih, put_of_notMem h]

/-- Copying between two lists of pages that share none writes what the source holds. -/
lemma flat_copyBetween (hnodup : dst.Nodup) (hapart : ∀ p ∈ src, p ∉ dst)
    (hend : target + left ≤ P * dst.length) :
    flat P (copyBetween P mem src source dst target left) dst =
      store (flat P mem dst) target (load (flat P mem src) source left) := by
  fun_induction copyBetween P mem src source dst target left with
  | case1 mem source target =>
    funext i
    simp [store]
  | case2 mem source target left hne count hpos ih =>
    have hsrc : count ≤ P - source % P := Nat.le_trans chunk_le_left chunk_le_page
    have hdst : count ≤ P - target % P := chunk_le_page
    have hle : count ≤ left := Nat.le_trans chunk_le_left chunk_le_left
    have hread : load (page mem src (source / P)) (source % P) count =
        load (flat P mem src) source count := (load_flat_chunk hsrc).symm
    have hlen : (load (flat P mem src) source count).length = count := length_load
    rw [hread] at ih ⊢
    -- the source pages are not written
    have hsame :
      flat P (put mem dst (target / P) (target % P) (load (flat P mem src) source count)) src =
        flat P mem src :=
      flat_congr fun p hp => put_of_notMem (hapart p hp)
    rw [ih (by omega), hsame, flat_put hnodup (by rw [hlen]; exact hdst) (by rw [hlen]; omega)]
    calc store (store (flat P mem dst) target (load (flat P mem src) source count))
          (target + count) (load (flat P mem src) (source + count) (left - count))
        = store (store (flat P mem dst) target (load (flat P mem src) source count))
          (target + (load (flat P mem src) source count).length)
          (load (flat P mem src) (source + count) (left - count)) := by
            rw [hlen]
      _ = store (flat P mem dst) target (load (flat P mem src) source left) := by
            rw [store_append, ← load_add, Nat.add_sub_cancel' hle]

end Lemmas

end Paged
