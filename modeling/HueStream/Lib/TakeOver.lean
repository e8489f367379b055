import HueStream.Lib.FirstMatch
import Mathlib.Data.List.Perm.Basic

/-! # Taking over the entries of another list

Each entry of a list `fs` is written to the first entry of a list `l` with its key (`takeAll`). What `l` holds
then comes from two sides: from the latest entry of `fs` for each key found (`latest`, of those `met`), and from
the entries of `l` that are not the first with a key of `fs` (`overlooked`). The statement is about the entries
with a property `p` that is not written, and about a value `v` of entries that is. -/

namespace HueStream.Lib.TakeOver

variable {α β κ γ : Type*} [DecidableEq κ] (key : α → κ) (key' : β → κ) (set : β → α → α) (p : α → Bool)

/-- The first entry with the key of `f` takes over. -/
def take (f : β) (l : List α) : List α := modifyFirst (fun a => key a = key' f) (set f) l

/-- All of `fs` are taken over, in their order. -/
def takeAll (fs : List β) (l : List α) : List α := fs.foldl (fun l f => take key key' set f l) l

/-- The entries with a counterpart that has the property. -/
def met (fs : List β) (l : List α) : List β := fs.filter fun f => (l.find? fun a => key a = key' f).any p

/-- The last entry of each key. -/
def latest : List β → List β
  | [] => []
  | f :: fs => if key' f ∈ fs.map key' then latest fs else f :: latest fs

/-- The entries with another one of their key behind them. -/
def repeated : List β → List β
  | [] => []
  | f :: fs => if key' f ∈ fs.map key' then f :: repeated fs else repeated fs

/-- The entries that are not the first with one of the keys. -/
def overlooked (keys : List κ) : List α → List α
  | [] => []
  | a :: l => if key a ∈ keys then overlooked (keys.filter (· ≠ key a)) l else a :: overlooked keys l

variable {key key' set p} {fs : List β} {l : List α} {a : α} {f : β} {keys : List κ} {v : α → γ} {w : β → γ}

theorem latest_append_repeated_perm (fs : List β) : (latest key' fs ++ repeated key' fs).Perm fs := by
  induction fs with
  | nil => exact List.Perm.refl _
  | cons f fs ih =>
    unfold latest repeated
    split_ifs
    · exact List.perm_middle.trans (ih.cons f)
    · exact ih.cons f

theorem latest_eq_nil : latest key' fs = [] ↔ fs = [] := by
  refine ⟨fun h => ?_, by rintro rfl; rfl⟩
  induction fs with
  | nil => rfl
  | cons f fs ih =>
    unfold latest at h
    split_ifs at h with hmem
    rw [ih h] at hmem
    simp at hmem

/-- With pairwise different keys no entry is repeated. -/
theorem repeated_eq_nil (h : (fs.map key').Nodup) : repeated key' fs = [] := by
  induction fs with
  | nil => rfl
  | cons f fs ih =>
    rw [List.map_cons, List.nodup_cons] at h
    rw [repeated, if_neg h.1, ih h.2]

theorem take_cons_of_eq (h : key a = key' f) : take key key' set f (a :: l) = set f a :: l :=
  if_pos (decide_eq_true h)

theorem take_cons_of_ne (h : key a ≠ key' f) :
    take key key' set f (a :: l) = a :: take key key' set f l := if_neg (by simpa using h)

theorem overlooked_cons_of_mem (h : key a ∈ keys) :
    overlooked key keys (a :: l) = overlooked key (keys.filter (· ≠ key a)) l := if_pos h

theorem overlooked_cons_of_not_mem (h : key a ∉ keys) :
    overlooked key keys (a :: l) = a :: overlooked key keys l := if_neg h

theorem find?_take (hkey : ∀ f a, key (set f a) = key a) (hp : ∀ f a, p (set f a) = p a) (g f : β) :
    ((take key key' set f l).find? fun a => key a = key' g).any p =
      (l.find? fun a => key a = key' g).any p := by
  induction l with
  | nil => rfl
  | cons a l ih =>
    have hset : key (set f a) = key a := hkey f a
    by_cases hf : key a = key' f
    · rw [take_cons_of_eq hf, List.find?_cons, List.find?_cons, hset]
      by_cases hg : key a = key' g
      · simp only [hg, decide_true, Option.any_some, hp]
      · simp only [hg, decide_false]
    · rw [take_cons_of_ne hf, List.find?_cons, List.find?_cons]
      by_cases hg : key a = key' g
      · simp only [hg, decide_true]
      · simpa only [hg, decide_false] using ih

theorem met_take (hkey : ∀ f a, key (set f a) = key a) (hp : ∀ f a, p (set f a) = p a) (f : β) :
    met key key' p fs (take key key' set f l) = met key key' p fs l := by
  unfold met
  refine List.filter_congr fun g _ => ?_
  exact find?_take hkey hp g f

/-- What is written to the first entry of a key that is overlooked anyway is not seen. -/
theorem overlooked_take_of_mem (hkey : ∀ f a, key (set f a) = key a) (hf : key' f ∈ keys) :
    overlooked key keys (take key key' set f l) = overlooked key keys l := by
  induction l generalizing keys with
  | nil => rfl
  | cons a l ih =>
    by_cases ha : key a = key' f
    · have hset : key (set f a) ∈ keys := by rwa [hkey, ha]
      have hmem : key a ∈ keys := by rwa [ha]
      rw [take_cons_of_eq ha, overlooked_cons_of_mem hset, overlooked_cons_of_mem hmem, hkey]
    · rw [take_cons_of_ne ha]
      by_cases hmem : key a ∈ keys
      · rw [overlooked_cons_of_mem hmem, overlooked_cons_of_mem hmem]
        exact ih (List.mem_filter.mpr ⟨hf, by simpa using Ne.symm ha⟩)
      · rw [overlooked_cons_of_not_mem hmem, overlooked_cons_of_not_mem hmem, ih hf]

/-- What is written to the first entry of another key is seen. -/
theorem overlooked_take_perm (hkey : ∀ f a, key (set f a) = key a) (hp : ∀ f a, p (set f a) = p a)
    (hv : ∀ f a, v (set f a) = w f) (hf : key' f ∉ keys) :
    (((overlooked key keys (take key key' set f l)).filter p).map v).Perm
      ((if (l.find? fun a => key a = key' f).any p then [w f] else []) ++
        ((overlooked key (key' f :: keys) l).filter p).map v) := by
  induction l generalizing keys with
  | nil => exact List.Perm.refl _
  | cons a l ih =>
    by_cases ha : key a = key' f
    · have hset : key (set f a) ∉ keys := by rwa [hkey, ha]
      have hmem : key a ∈ key' f :: keys := by simp [ha]
      have hkeys : (key' f :: keys).filter (· ≠ key a) = keys := by
        rw [List.filter_cons_of_neg (by simp [ha]), List.filter_eq_self]
        intro k hk
        have hne : k ≠ key a := fun heq => hf (ha ▸ heq ▸ hk)
        simpa using hne
      rw [take_cons_of_eq ha, overlooked_cons_of_not_mem hset, overlooked_cons_of_mem hmem, hkeys,
        List.find?_cons_of_pos (by simpa using ha)]
      cases hpa : p a with
      | true => simp [hp, hv, hpa]
      | false => simp [hp, hpa]
    · rw [take_cons_of_ne ha, List.find?_cons_of_neg (by simpa using ha)]
      by_cases hmem : key a ∈ keys
      · have hmem' : key a ∈ key' f :: keys := List.mem_cons_of_mem _ hmem
        have hkeys : (key' f :: keys).filter (· ≠ key a) = key' f :: keys.filter (· ≠ key a) :=
          List.filter_cons_of_pos (by simpa using Ne.symm ha)
        rw [overlooked_cons_of_mem hmem, overlooked_cons_of_mem hmem', hkeys]
        exact ih fun h => hf (List.mem_of_mem_filter h)
      · have hmem' : key a ∉ key' f :: keys := by simp [ha, hmem]
        rw [overlooked_cons_of_not_mem hmem, overlooked_cons_of_not_mem hmem']
        cases hpa : p a with
        | true =>
          rw [List.filter_cons_of_pos hpa, List.filter_cons_of_pos hpa, List.map_cons, List.map_cons]
          exact ((ih hf).cons (v a)).trans List.perm_middle.symm
        | false =>
          rw [List.filter_cons_of_neg (by simp [hpa]), List.filter_cons_of_neg (by simp [hpa])]
          exact ih hf

theorem overlooked_nil : overlooked key [] l = l := by
  induction l with
  | nil => rfl
  | cons a l ih => simp [overlooked, ih]

theorem overlooked_congr {keys' : List κ} (h : ∀ k, k ∈ keys ↔ k ∈ keys') :
    overlooked key keys l = overlooked key keys' l := by
  induction l generalizing keys keys' with
  | nil => rfl
  | cons a l ih =>
    have hfilter : ∀ k, k ∈ keys.filter (· ≠ key a) ↔ k ∈ keys'.filter (· ≠ key a) := by
      intro k
      simp [h]
    simp only [overlooked, h, ih h, ih hfilter]

/-- **What a list holds after all is taken over**: the latest entries met, and what is overlooked. -/
theorem takeAll_perm (hkey : ∀ f a, key (set f a) = key a) (hp : ∀ f a, p (set f a) = p a)
    (hv : ∀ f a, v (set f a) = w f) :
    (((takeAll key key' set fs l).filter p).map v).Perm
      ((latest key' (met key key' p fs l)).map w ++
        ((overlooked key (fs.map key') l).filter p).map v) := by
  induction fs generalizing l with
  | nil =>
    rw [List.map_nil, overlooked_nil]
    exact List.Perm.refl _
  | cons f fs ih =>
    rw [takeAll, List.foldl_cons]
    refine (ih (l := take key key' set f l)).trans ?_
    rw [met_take hkey hp]
    by_cases hmem : key' f ∈ fs.map key'
    · -- A later entry has the key of `f`, and writes to the same one.
      have hkeys : ∀ k, k ∈ fs.map key' ↔ k ∈ (f :: fs).map key' := by
        intro k
        rw [List.map_cons, List.mem_cons]
        exact ⟨.inr, fun h => h.elim (fun heq => heq ▸ hmem) id⟩
      have hlatest : latest key' (met key key' p (f :: fs) l) = latest key' (met key key' p fs l) := by
        unfold met
        rw [List.filter_cons]
        split_ifs with hmet
        · refine if_pos ?_
          obtain ⟨g, hg, hgf⟩ := List.mem_map.mp hmem
          refine List.mem_map.mpr ⟨g, List.mem_filter.mpr ⟨hg, ?_⟩, hgf⟩
          rwa [hgf]
        · rfl
      rw [overlooked_take_of_mem hkey hmem, hlatest, overlooked_congr hkeys]
    · have hlatest : (latest key' (met key key' p (f :: fs) l)).map w =
          (if (l.find? fun a => key a = key' f).any p then [w f] else []) ++
            (latest key' (met key key' p fs l)).map w := by
        unfold met
        rw [List.filter_cons]
        split_ifs with hmet
        · have hlast : key' f ∉ (fs.filter fun g => (l.find? fun a => key a = key' g).any p).map key' :=
            fun h => hmem ((List.filter_sublist.map key').subset h)
          rw [latest, if_neg hlast]
          rfl
        · rfl
      rw [hlatest, List.map_cons]
      refine ((overlooked_take_perm hkey hp hv hmem).append_left _).trans ?_
      rw [← List.append_assoc]
      exact List.perm_append_comm.append_right _

/-- What is taken over by no entry with the property leaves these as they are. -/
theorem overlooked_filter_of_none (h : ∀ k ∈ keys, (l.find? fun a => key a = k).any p = false) :
    (overlooked key keys l).filter p = l.filter p := by
  induction l generalizing keys with
  | nil => rfl
  | cons a l ih =>
    by_cases hmem : key a ∈ keys
    · have ha : p a = false := by simpa using h (key a) hmem
      rw [overlooked_cons_of_mem hmem, List.filter_cons_of_neg (by simp [ha])]
      refine ih fun k hk => ?_
      obtain ⟨hk, hne⟩ := List.mem_filter.mp hk
      have hne : ¬ key a = k := fun heq => by simp [heq] at hne
      simpa [List.find?_cons, hne] using h k hk
    · have hl : ∀ k ∈ keys, (l.find? fun a => key a = k).any p = false := by
        intro k hk
        have hne : ¬ key a = k := fun heq => hmem (heq ▸ hk)
        simpa [List.find?_cons, hne] using h k hk
      rw [overlooked_cons_of_not_mem hmem, List.filter_cons, List.filter_cons, ih hl]

/-- Entries of other keys stay as they are. -/
theorem filter_takeAll (hkey : ∀ f a, key (set f a) = key a) :
    (takeAll key key' set fs l).filter (fun a => key a ∉ fs.map key') =
      l.filter fun a => key a ∉ fs.map key' := by
  suffices h : ∀ gs : List β, (∀ g ∈ gs, g ∈ fs) → ∀ l : List α,
      (takeAll key key' set gs l).filter (fun a => key a ∉ fs.map key') =
        l.filter fun a => key a ∉ fs.map key' from h fs (fun _ hg => hg) l
  intro gs hgs l
  induction gs generalizing l with
  | nil => rfl
  | cons g gs ih =>
    rw [takeAll, List.foldl_cons]
    refine (ih (fun x hx => hgs x (List.mem_cons_of_mem _ hx)) _).trans ?_
    refine filter_modifyFirst fun a ha => ?_
    have ha : key a = key' g := by simpa using ha
    have hmem : key' g ∈ fs.map key' := List.mem_map_of_mem (hgs g (List.mem_cons_self ..))
    simp only [hkey, ha, hmem, not_true_eq_false, decide_false, and_self]

end HueStream.Lib.TakeOver
