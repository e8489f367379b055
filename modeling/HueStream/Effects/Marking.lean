import HueStream.Effects.RadialEffect

/-! # Which lights are marked

Two entries of the map that are next to each other are neighbours of the angles between them, unless there is half a turn
or more between them: `isAngleBetween` then asks for the other side.

* `mem_marks_iff`: where it asks for the right side, the lights nearest to the angle are marked. -/

namespace HueStream.Effects

open HueStream.Data HueStream.Lib

namespace HueMath

variable {t a b : ℚ}

theorem fmod_of_lt {x : ℚ} (hx : 0 ≤ x) (hlt : x < 360) : fmod x 360 = x := by
  have hfloor : ⌊x / 360⌋ = 0 := by
    rw [Int.floor_eq_zero_iff]
    exact ⟨by positivity, by rw [div_lt_one (by norm_num)]; exact hlt⟩
  rw [fmod, truncate_of_nonneg (by positivity), hfloor]
  simp

theorem fmod_add {x : ℚ} (hx : 0 ≤ x) (hlt : x < 360) : fmod (x + 360) 360 = x := by
  have hfloor : ⌊(x + 360) / 360⌋ = 1 := by
    rw [Int.floor_eq_iff]
    constructor
    · rw [le_div_iff₀ (by norm_num)]
      push_cast
      linarith
    · rw [div_lt_iff₀ (by norm_num)]
      push_cast
      linarith
  rw [fmod, truncate_of_nonneg (by positivity), hfloor]
  simp

/-- Up to half a turn the angles between are those from the one to the other, and else the other ones. -/
theorem isAngleBetween_iff (ha : IsAngle a) (hb : IsAngle b) (hlt : a < b) : isAngleBetween t a b = true ↔
    if b - a < 180 then a ≤ t ∧ t ≤ b else b ≤ t ∨ t ≤ a := by
  have hpos : 0 ≤ b - a := sub_nonneg.mpr hlt.le
  have hturn : b - a < 360 := by linarith [ha.1, hb.2]
  have hdiff : fmod (fmod (b - a) 360 + 360) 360 = b - a := by rw [fmod_of_lt hpos hturn, fmod_add hpos hturn]
  unfold isAngleBetween
  rw [hdiff]
  by_cases hhalf : b - a < 180
  · simp [hhalf, not_le.mpr hhalf, hlt.le]
  · simp [hhalf, not_lt.mp hhalf, not_le.mpr hlt]

/-- For an angle that is not far above `t`, the degrees on the shorter way. -/
theorem getDiffDegrees_eq (ht : IsAngle t) (ha : IsAngle a) (hle : a ≤ t + 180) : getDiffDegrees a t = around t a := by
  obtain ⟨h0, h1⟩ := ht
  obtain ⟨h2, h3⟩ := ha
  rcases lt_or_ge t a with hlt | hge
  · have hmin : min (t - a) (360 + a - t) = t - a := min_eq_left (by linarith)
    have haround : around t a = a - t := by
      rw [around, down, up, if_neg (not_le.mpr hlt), if_pos hlt.le]
      exact min_eq_right (by linarith)
    rw [getDiffDegrees, hmin, haround, if_pos (by linarith)]
    ring
  · have hnonneg : 0 ≤ min (t - a) (360 + a - t) := le_min (by linarith) (by linarith)
    rw [getDiffDegrees, if_neg (not_lt.mpr hnonneg), around, down, if_pos hge]
    unfold up
    split_ifs with hle'
    · rw [min_eq_left (by linarith), min_eq_left (by linarith)]
    · congr 1
      ring

theorem getDiffDegrees_pos (ht : IsAngle t) (ha : IsAngle a) (hne : a ≠ t) : 0 < getDiffDegrees a t := by
  obtain ⟨h0, h1⟩ := ht
  obtain ⟨h2, h3⟩ := ha
  have hmin : min (t - a) (360 + a - t) ≠ 0 := by
    rcases min_choice (t - a) (360 + a - t) with h | h <;> rw [h]
    · exact sub_ne_zero.mpr hne.symm
    · linarith
  rw [getDiffDegrees]
  by_cases hneg : min (t - a) (360 + a - t) < 0
  · rw [if_pos hneg]
    linarith
  · rw [if_neg hneg]
    exact lt_of_le_of_ne (not_lt.mp hneg) hmin.symm

theorem getDiffDegrees_nonneg (a b : ℚ) : 0 ≤ getDiffDegrees a b := by
  rw [getDiffDegrees]
  by_cases hneg : min (b - a) (360 + a - b) < 0
  · rw [if_pos hneg]
    linarith
  · rw [if_neg hneg]
    exact not_lt.mp hneg

theorem getDiffDegrees_self (a : ℚ) : getDiffDegrees a a = 0 := by simp [getDiffDegrees]

end HueMath

namespace RadialEffect

variable {t : ℚ} {entries : List (ℚ × Light)} {e f s : ℚ × Light}

/-! ### Entries next to each other -/

/-- The entry `s` comes next after the entry `f`. -/
def Next (entries : List (ℚ × Light)) (f s : ℚ × Light) : Prop := ∃ before after, entries = before ++ f :: s :: after

theorem next_cons {a b : ℚ × Light} : Next (a :: b :: entries) f s ↔ (f = a ∧ s = b) ∨ Next (b :: entries) f s := by
  constructor
  · rintro ⟨before, after, hsplit⟩
    cases before with
    | nil =>
      obtain ⟨hf, hrest⟩ := List.cons.inj hsplit
      exact .inl ⟨hf.symm, (List.cons.inj hrest).1.symm⟩
    | cons c before => exact .inr ⟨before, after, (List.cons.inj hsplit).2⟩
  · rintro (⟨rfl, rfl⟩ | ⟨before, after, hsplit⟩)
    · exact ⟨[], entries, rfl⟩
    · exact ⟨a :: before, after, by rw [hsplit, List.cons_append]⟩

theorem not_next_singleton {a : ℚ × Light} : ¬ Next [a] f s := by
  rintro ⟨before, after, hsplit⟩
  have hlength := congrArg List.length hsplit
  simp at hlength
  omega

/-- The entries are in the order of their keys. -/
abbrev Ordered (entries : List (ℚ × Light)) : Prop := entries.Pairwise fun a b => a.1 < b.1

/-- There is no key between those of two entries next to each other. -/
theorem Next.none_between (hordered : Ordered entries) (h : Next entries f s) :
    f ∈ entries ∧ s ∈ entries ∧ f.1 < s.1 ∧ ∀ e ∈ entries, e.1 ≤ f.1 ∨ s.1 ≤ e.1 := by
  obtain ⟨before, after, rfl⟩ := h
  obtain ⟨-, hrest, hbefore⟩ := List.pairwise_append.mp hordered
  obtain ⟨hf, hrest⟩ := List.pairwise_cons.mp hrest
  obtain ⟨hs, -⟩ := List.pairwise_cons.mp hrest
  refine ⟨by simp, by simp, hf s (by simp), fun e he => ?_⟩
  rcases List.mem_append.mp he with he | he
  · exact .inl (hbefore e he f (by simp)).le
  · rcases List.mem_cons.mp he with rfl | he
    · exact .inl le_rfl
    · rcases List.mem_cons.mp he with rfl | he
      · exact .inr le_rfl
      · exact .inr (hs e he).le

/-- An angle between the first key and some other one is between two keys next to each other. -/
theorem exists_next {a : ℚ × Light} (ha : a.1 ≤ t) (he : ∃ e ∈ entries, t ≤ e.1) :
    ∃ f s, Next (a :: entries) f s ∧ f.1 ≤ t ∧ t ≤ s.1 := by
  induction entries generalizing a with
  | nil => simp at he
  | cons b entries ih =>
    by_cases hb : t ≤ b.1
    · exact ⟨a, b, ⟨[], entries, rfl⟩, ha, hb⟩
    · obtain ⟨e, he, hle⟩ := he
      have hmem : e ∈ entries := (List.mem_cons.mp he).resolve_left fun heq => hb (heq ▸ hle)
      obtain ⟨f, s, hnext, hbetween⟩ := ih (not_le.mp hb).le ⟨e, hmem, hle⟩
      exact ⟨f, s, next_cons.mpr (.inr hnext), hbetween⟩

/-- What the loop finds: the first two entries next to each other with the angle between them, if there are any. -/
theorem findPair_spec (t : ℚ) (entries : List (ℚ × Light)) :
    (findPair t entries = none ∧ ∀ f s, Next entries f s → HueMath.isAngleBetween t f.1 s.1 = false) ∨
      ∃ before f s after, entries = before ++ f :: s :: after ∧ findPair t entries = some (f, s) ∧
        HueMath.isAngleBetween t f.1 s.1 = true ∧
        ∀ c d, Next (before ++ [f]) c d → HueMath.isAngleBetween t c.1 d.1 = false := by
  induction entries with
  | nil => exact .inl ⟨rfl, fun f s ⟨before, after, hsplit⟩ => by simp at hsplit⟩
  | cons a entries ih =>
    cases entries with
    | nil => exact .inl ⟨rfl, fun f s hnext => absurd hnext not_next_singleton⟩
    | cons b entries =>
      rw [findPair]
      cases hfirst : HueMath.isAngleBetween t a.1 b.1 with
      | true =>
        refine .inr ⟨[], a, b, entries, rfl, by simp, hfirst, fun c d hnext => ?_⟩
        exact absurd hnext not_next_singleton
      | false =>
        rw [if_neg (by simp)]
        rcases ih with ⟨hnone, hall⟩ | ⟨before, f, s, after, hsplit, hsome, hbetween, hall⟩
        · refine .inl ⟨hnone, fun f s hnext => ?_⟩
          rcases next_cons.mp hnext with ⟨rfl, rfl⟩ | hnext
          · exact hfirst
          · exact hall f s hnext
        · refine .inr ⟨a :: before, f, s, after, by rw [hsplit, List.cons_append], hsome, hbetween, fun c d hnext => ?_⟩
          cases before with
          | nil =>
            obtain ⟨rfl, -⟩ := List.cons.inj hsplit
            rcases next_cons.mp hnext with ⟨rfl, rfl⟩ | hnext
            · exact hfirst
            · exact absurd hnext not_next_singleton
          | cons b' before =>
            obtain ⟨rfl, -⟩ := List.cons.inj hsplit
            rcases next_cons.mp hnext with ⟨rfl, rfl⟩ | hnext
            · exact hfirst
            · exact hall c d hnext

/-! ### The pair -/

/-- The pair has the neighbours of the angle, or the angle itself. -/
structure PairRight (entries : List (ℚ × Light)) (t : ℚ) (f s : ℚ × Light) : Prop where
  first : f ∈ entries
  second : s ∈ entries
  ne : f.1 ≠ s.1
  right : t = f.1 ∨ t = s.1 ∨ Neighbours (entries.map Prod.fst) t f.1 s.1 ∨ Neighbours (entries.map Prod.fst) t s.1 f.1

/-- Two keys with half a turn or more and no other key between them are the only ones, or the angle is the second one, or
it is between the smallest key and the first one. -/
def GapRight (keys : List ℚ) (t : ℚ) : Prop :=
  ∀ a ∈ keys, ∀ b ∈ keys, a + 180 ≤ b → (∀ c ∈ keys, c ≤ a ∨ b ≤ c) →
    (∀ c ∈ keys, c = a ∨ c = b) ∨ ((∃ c ∈ keys, c ≤ t) ∧ t ≤ a) ∨ t = b

variable {first second : ℚ × Light}

theorem Ordered.first_le (h : Ordered (first :: entries)) : ∀ e ∈ first :: entries, first.1 ≤ e.1 := by
  intro e he
  rcases List.mem_cons.mp he with rfl | he
  · exact le_rfl
  · exact ((List.pairwise_cons.mp h).1 e he).le

theorem Ordered.le_last (h : Ordered entries) (hne : entries ≠ []) : ∀ e ∈ entries, e.1 ≤ (entries.getLast hne).1 := by
  intro e he
  rw [← List.dropLast_append_getLast hne] at h he
  rcases List.mem_append.mp he with he | he
  · exact ((List.pairwise_append.mp h).2.2 e he _ (by simp)).le
  · rw [List.mem_singleton.mp he]

/-- Where the angle is a key, it is between two entries next to each other. -/
theorem exists_next_of_key (hordered : Ordered (first :: second :: entries)) (he : e ∈ first :: second :: entries)
    (ht : t = e.1) : ∃ f s, Next (first :: second :: entries) f s ∧ (t = f.1 ∨ t = s.1) := by
  by_cases hfirst : t = first.1
  · exact ⟨first, second, ⟨[], entries, rfl⟩, .inl hfirst⟩
  · have hmem : e ∈ second :: entries := (List.mem_cons.mp he).resolve_left fun heq => hfirst (heq ▸ ht)
    have hle : first.1 ≤ t := ht ▸ hordered.first_le e he
    obtain ⟨f, s, hnext, hf, hs⟩ := exists_next hle ⟨e, hmem, ht.le⟩
    refine ⟨f, s, hnext, ?_⟩
    rcases (hnext.none_between hordered).2.2.2 e he with hside | hside
    · exact .inl (le_antisymm (ht ▸ hside) hf)
    · exact .inr (le_antisymm hs (ht ▸ hside))

/-- Without a pair around the angle it is outside all keys, or there are just two. -/
theorem pairRight_of_none (hordered : Ordered (first :: second :: entries))
    (hangles : ∀ a ∈ (first :: second :: entries).map Prod.fst, IsAngle a)
    (hgap : GapRight ((first :: second :: entries).map Prod.fst) t)
    (hnone : ∀ f s, Next (first :: second :: entries) f s → HueMath.isAngleBetween t f.1 s.1 = false) :
    PairRight (first :: second :: entries) t first ((second :: entries).getLast (List.cons_ne_nil second entries)) := by
  have hkey : ∀ e ∈ first :: second :: entries, e.1 ∈ (first :: second :: entries).map Prod.fst := fun e he =>
    List.mem_map_of_mem he
  have hbetween : ∀ f s, Next (first :: second :: entries) f s →
      ¬ if s.1 - f.1 < 180 then f.1 ≤ t ∧ t ≤ s.1 else s.1 ≤ t ∨ t ≤ f.1 := by
    intro f s hnext
    obtain ⟨hf, hs, hlt, -⟩ := hnext.none_between hordered
    rw [← HueMath.isAngleBetween_iff (hangles _ (hkey f hf)) (hangles _ (hkey s hs)) hlt, hnone f s hnext]
    exact Bool.false_ne_true
  have hkeys : ∀ e ∈ first :: second :: entries, t ≠ e.1 := by
    intro e he ht
    obtain ⟨f, s, hnext, hkey⟩ := exists_next_of_key hordered he ht
    have hlt := (hnext.none_between hordered).2.2.1
    refine hbetween f s hnext ?_
    split_ifs <;> rcases hkey with rfl | rfl
    · exact ⟨le_rfl, hlt.le⟩
    · exact ⟨hlt.le, le_rfl⟩
    · exact .inr le_rfl
    · exact .inl le_rfl
  set last := (second :: entries).getLast (List.cons_ne_nil second entries) with hlast
  have hmem : last ∈ first :: second :: entries := List.mem_cons_of_mem first (List.getLast_mem _)
  have hfirst : first.1 < last.1 := (List.pairwise_cons.mp hordered).1 last (List.getLast_mem _)
  have hle : ∀ e ∈ first :: second :: entries, first.1 ≤ e.1 ∧ e.1 ≤ last.1 := by
    intro e he
    refine ⟨hordered.first_le e he, ?_⟩
    have hlast' := hordered.le_last (List.cons_ne_nil first _) e he
    rwa [List.getLast_cons (List.cons_ne_nil second entries)] at hlast'
  refine ⟨by simp, hmem, hfirst.ne, .inr (.inr ?_)⟩
  by_cases hout : t < first.1 ∨ last.1 < t
  · refine .inr (neighbours_outside hangles (hkey last hmem) (hkey first (by simp)) ?_ hout)
    intro a ha
    obtain ⟨e, he, rfl⟩ := List.mem_map.mp ha
    exact hle e he
  · obtain ⟨hge, hle'⟩ := not_or.mp hout
    obtain ⟨f, s, hnext, hf, hs⟩ := exists_next (not_lt.mp hge) ⟨last, List.getLast_mem _, not_lt.mp hle'⟩
    obtain ⟨hfmem, hsmem, hlt, hside⟩ := hnext.none_between hordered
    -- The angle is between them, so there is half a turn or more.
    have hhalf : f.1 + 180 ≤ s.1 := by
      by_contra hhalf
      exact hbetween f s hnext (by rw [if_pos (by linarith)]; exact ⟨hf, hs⟩)
    have hsides : ∀ c ∈ (first :: second :: entries).map Prod.fst, c ≤ f.1 ∨ s.1 ≤ c := by
      intro c hc
      obtain ⟨e, he, rfl⟩ := List.mem_map.mp hc
      exact hside e he
    rcases hgap f.1 (hkey f hfmem) s.1 (hkey s hsmem) hhalf hsides with htwo | ⟨-, htf⟩ | hts
    · have hfirst' : first.1 = f.1 := (htwo first.1 (hkey first (by simp))).resolve_right fun heq => by
        linarith [(hle f hfmem).1]
      have hlast' : last.1 = s.1 := (htwo last.1 (hkey last hmem)).resolve_left fun heq => by
        linarith [(hle s hsmem).2]
      rw [hfirst', hlast']
      exact .inl (neighbours_between hangles (hkey f hfmem) (hkey s hsmem) (lt_of_le_of_ne hf (hkeys f hfmem).symm)
        (lt_of_le_of_ne hs (hkeys s hsmem)) hsides)
    · exact absurd (le_antisymm htf hf) (hkeys f hfmem)
    · exact absurd hts (hkeys s hsmem)

/-- A pair around the angle is right: where it asks for the other side there are just two keys, or an earlier pair is
around the angle. -/
theorem pairRight_of_some {before after : List (ℚ × Light)} (hordered : Ordered (before ++ f :: s :: after))
    (hangles : ∀ a ∈ (before ++ f :: s :: after).map Prod.fst, IsAngle a)
    (hgap : GapRight ((before ++ f :: s :: after).map Prod.fst) t) (hfound : HueMath.isAngleBetween t f.1 s.1 = true)
    (hbefore : ∀ c d, Next (before ++ [f]) c d → HueMath.isAngleBetween t c.1 d.1 = false) :
    PairRight (before ++ f :: s :: after) t f s := by
  have hkey : ∀ e ∈ before ++ f :: s :: after, e.1 ∈ (before ++ f :: s :: after).map Prod.fst := fun e he =>
    List.mem_map_of_mem he
  have hnext : Next (before ++ f :: s :: after) f s := ⟨before, after, rfl⟩
  obtain ⟨hf, hs, hlt, hside⟩ := hnext.none_between hordered
  have hsides : ∀ c ∈ (before ++ f :: s :: after).map Prod.fst, c ≤ f.1 ∨ s.1 ≤ c := by
    intro c hc
    obtain ⟨e, he, rfl⟩ := List.mem_map.mp hc
    exact hside e he
  refine ⟨hf, hs, hlt.ne, ?_⟩
  by_cases htf : t = f.1
  · exact .inl htf
  by_cases hts : t = s.1
  · exact .inr (.inl hts)
  rw [HueMath.isAngleBetween_iff (hangles _ (hkey f hf)) (hangles _ (hkey s hs)) hlt] at hfound
  split_ifs at hfound with hhalf
  · exact .inr (.inr (.inl (neighbours_between hangles (hkey f hf) (hkey s hs) (lt_of_le_of_ne hfound.1 (Ne.symm htf))
      (lt_of_le_of_ne hfound.2 hts) hsides)))
  · rcases hgap f.1 (hkey f hf) s.1 (hkey s hs) (by linarith) hsides with htwo | ⟨⟨c, hc, hct⟩, hle⟩ | heq
    · refine .inr (.inr (.inr (neighbours_outside hangles (hkey s hs) (hkey f hf) (fun a ha => ?_) ?_)))
      · rcases htwo a ha with rfl | rfl
        · exact ⟨le_rfl, hlt.le⟩
        · exact ⟨hlt.le, le_rfl⟩
      · rcases hfound with hge | hle
        · exact .inr (lt_of_le_of_ne hge (Ne.symm hts))
        · exact .inl (lt_of_le_of_ne hle htf)
    · exfalso
      obtain ⟨e, he, rfl⟩ := List.mem_map.mp hc
      have htlt : t < f.1 := lt_of_le_of_ne hle htf
      cases before with
      | nil => linarith [hordered.first_le e he]
      | cons first before =>
        have hfirst : first.1 ≤ t := (hordered.first_le e he).trans hct
        obtain ⟨c, d, hnext', hc, hd⟩ := exists_next hfirst ⟨f, (by simp : f ∈ before ++ [f]), hle⟩
        have hordered' : Ordered (first :: before ++ [f]) :=
          hordered.sublist (List.Sublist.append_left (by simp) (first :: before))
        obtain ⟨hcmem, hdmem, hcd, -⟩ := hnext'.none_between hordered'
        have hmem : ∀ e ∈ first :: (before ++ [f]), e ∈ first :: before ++ f :: s :: after := fun e he => by
          simp at he ⊢
          tauto
        have hdf : d.1 ≤ f.1 := by
          have hlast := Ordered.le_last hordered' (by simp) d hdmem
          rwa [List.getLast_append_singleton] at hlast
        obtain ⟨h0, -⟩ := hangles _ (hkey c (hmem c hcmem))
        obtain ⟨-, h1⟩ := hangles _ (hkey s hs)
        have hbetween : HueMath.isAngleBetween t c.1 d.1 = true := by
          rw [HueMath.isAngleBetween_iff (hangles _ (hkey c (hmem c hcmem))) (hangles _ (hkey d (hmem d hdmem))) hcd,
            if_pos (by linarith)]
          exact ⟨hc, hd⟩
        rw [hbefore c d hnext'] at hbetween
        cases hbetween
    · exact absurd heq hts

/-! ### The marks -/

theorem Ordered.eq_of_key (h : Ordered entries) {e' : ℚ × Light} (he : e ∈ entries) (he' : e' ∈ entries)
    (hkey : e.1 = e'.1) : e = e' := by
  obtain ⟨i, hi, rfl⟩ := List.getElem_of_mem he
  obtain ⟨j, hj, rfl⟩ := List.getElem_of_mem he'
  rcases lt_trichotomy i j with hij | rfl | hij
  · exact absurd hkey (List.pairwise_iff_getElem.mp h i j hi hj hij).ne
  · rfl
  · exact absurd hkey.symm (List.pairwise_iff_getElem.mp h j i hj hi hij).ne

/-- A light of the pair is marked unless the other one is closer than a quarter. -/
theorem mem_marksOf {l : Light} : l ∈ marksOf t f s ↔
    (l = f.2 ∧ ¬ 4 * HueMath.getDiffDegrees s.1 t < HueMath.getDiffDegrees f.1 t + HueMath.getDiffDegrees s.1 t) ∨
      (l = s.2 ∧ ¬ 4 * HueMath.getDiffDegrees f.1 t < HueMath.getDiffDegrees f.1 t + HueMath.getDiffDegrees s.1 t) := by
  have hf := HueMath.getDiffDegrees_nonneg f.1 t
  have hs := HueMath.getDiffDegrees_nonneg s.1 t
  have hquarter : ∀ x y : ℚ, x < y / 4 ↔ 4 * x < y := fun x y => by
    rw [lt_div_iff₀ (by norm_num), mul_comm]
  unfold marksOf
  simp only [hquarter]
  split_ifs with hfirst hsecond
  · have hother : ¬ 4 * HueMath.getDiffDegrees s.1 t < HueMath.getDiffDegrees f.1 t + HueMath.getDiffDegrees s.1 t := by
      linarith
    simp [hfirst, hother]
  · simp [hfirst, hsecond]
  · simp [hfirst, hsecond]

/-- With a right pair the nearest keys are those that are not left out by the quarter. -/
theorem nearest_iff_of_pair (ht : IsAngle t) (hangles : ∀ a ∈ entries.map Prod.fst, IsAngle a)
    (habove : ∀ p q, Neighbours (entries.map Prod.fst) t p q → p ≤ t + 180 ∧ q ≤ t + 180)
    (hpair : PairRight entries t f s) {a : ℚ} : Nearest (entries.map Prod.fst) t a ↔
      (a = f.1 ∧ ¬ 4 * HueMath.getDiffDegrees s.1 t < HueMath.getDiffDegrees f.1 t + HueMath.getDiffDegrees s.1 t) ∨
        (a = s.1 ∧ ¬ 4 * HueMath.getDiffDegrees f.1 t <
          HueMath.getDiffDegrees f.1 t + HueMath.getDiffDegrees s.1 t) := by
  obtain ⟨hf, hs, hne, hright⟩ := hpair
  have hfmem : f.1 ∈ entries.map Prod.fst := List.mem_map_of_mem hf
  have hsmem : s.1 ∈ entries.map Prod.fst := List.mem_map_of_mem hs
  rcases hright with rfl | rfl | hneighbours | hneighbours
  · have hpos := HueMath.getDiffDegrees_pos ht (hangles s.1 hsmem) hne.symm
    have hfar : ¬ 4 * HueMath.getDiffDegrees s.1 f.1 < HueMath.getDiffDegrees s.1 f.1 := by linarith
    rw [nearest_self ht hangles hfmem, HueMath.getDiffDegrees_self]
    simp [hpos, hfar]
  · have hpos := HueMath.getDiffDegrees_pos ht (hangles f.1 hfmem) hne
    have hfar : ¬ 4 * HueMath.getDiffDegrees f.1 s.1 < HueMath.getDiffDegrees f.1 s.1 := by linarith
    rw [nearest_self ht hangles hsmem, HueMath.getDiffDegrees_self]
    simp [hpos, hfar]
  · obtain ⟨hle, hle'⟩ := habove _ _ hneighbours
    rw [HueMath.getDiffDegrees_eq ht (hangles _ hfmem) hle, HueMath.getDiffDegrees_eq ht (hangles _ hsmem) hle']
    exact nearest_iff hangles hneighbours
  · obtain ⟨hle, hle'⟩ := habove _ _ hneighbours
    rw [HueMath.getDiffDegrees_eq ht (hangles _ hfmem) hle', HueMath.getDiffDegrees_eq ht (hangles _ hsmem) hle,
      add_comm (around t f.1), or_comm]
    exact nearest_iff hangles hneighbours

/-- The lights of the nearest keys are marked. -/
theorem mem_marks_iff (hordered : Ordered entries) (ht : IsAngle t) (hangles : ∀ a ∈ entries.map Prod.fst, IsAngle a)
    (hgap : GapRight (entries.map Prod.fst) t)
    (habove : ∀ p q, Neighbours (entries.map Prod.fst) t p q → p ≤ t + 180 ∧ q ≤ t + 180)
    (hspread : ∃ a ∈ entries, ∃ b ∈ entries, a.1 ≠ b.1) {l : Light} :
    l ∈ marks t entries ↔ ∃ e ∈ entries, Nearest (entries.map Prod.fst) t e.1 ∧ e.2 = l := by
  obtain ⟨a, ha, b, hb, hab⟩ := hspread
  match entries with
  | [] => simp at ha
  | [entry] =>
    rw [List.mem_singleton.mp ha, List.mem_singleton.mp hb] at hab
    exact absurd rfl hab
  | first :: second :: entries =>
    obtain ⟨f, s, hmarks, hpair⟩ : ∃ f s, marks t (first :: second :: entries) = marksOf t f s ∧
        PairRight (first :: second :: entries) t f s := by
      rcases findPair_spec t (first :: second :: entries) with
        ⟨hnone, hall⟩ | ⟨before, f, s, after, hsplit, hsome, hfound, hall⟩
      · exact ⟨_, _, by rw [marks, hnone]; rfl, pairRight_of_none hordered hangles hgap hall⟩
      · refine ⟨f, s, by rw [marks, hsome]; rfl, ?_⟩
        rw [hsplit] at hordered hangles hgap ⊢
        exact pairRight_of_some hordered hangles hgap hfound hall
    rw [hmarks, mem_marksOf]
    simp only [nearest_iff_of_pair ht hangles habove hpair]
    constructor
    · rintro (⟨rfl, hfar⟩ | ⟨rfl, hfar⟩)
      · exact ⟨f, hpair.first, .inl ⟨rfl, hfar⟩, rfl⟩
      · exact ⟨s, hpair.second, .inr ⟨rfl, hfar⟩, rfl⟩
    · rintro ⟨e, he, ⟨hkey, hfar⟩ | ⟨hkey, hfar⟩, rfl⟩
      · exact .inl ⟨by rw [hordered.eq_of_key he hpair.first hkey], hfar⟩
      · exact .inr ⟨by rw [hordered.eq_of_key he hpair.second hkey], hfar⟩

end RadialEffect

end HueStream.Effects
