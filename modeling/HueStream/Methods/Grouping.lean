import HueStream.Methods.Responses
import Mathlib.Data.List.DropRight

/-! # How responses are grouped

A stream of responses is cut into pieces anywhere. It is a list of blocks, and a response of a bridge in it has a
site: the place where it can be recognised. What has been received and not been used is a window on the stream.

* `finds_old`, `finds_recent`: a loop of `parse_response` finds the first site of its format in the window.
* `parseResponse_window`: `parse_response` finds the responses of the old format that are visible, and those of the
  newer format after the last of them; it throws away the others.
* `listen_perm_iff`: what is collected from all pieces is what the responses say one by one if and only if a piece
  ends between each response of the newer format and each later one of the old format, and no id is cut. -/

namespace HueStream.Methods.Upnp

open HueStream.Lib Regex

/-! ### Streams -/

/-- What a stream is made of: lines of no interest, and responses of bridges from their first line on. -/
inductive Block
  | line (l : List Char)
  | old (s : OldFormat)
  | recent (s : NewFormat)

def Block.text : Block → List Char
  | .line l => l ++ crlf
  | .old s => s.base ++ s.tail
  | .recent s => s.text

def flat (bs : List Block) : List Char := bs.flatMap Block.text

/-- The lines of no interest are not those of a bridge, and an id line follows a response where it is its
own. -/
def Valid : List Block → Prop
  | [] => True
  | .line l :: bs => Clean l ∧ ¬ IsServer l ∧ Valid bs
  | .old s :: bs => (s.bridgeId = none → ¬ idField <+: flat bs) ∧ Valid bs
  | .recent _ :: bs => Valid bs

/-! ### Sites -/

inductive Format
  | old (s : OldFormat)
  | recent (s : NewFormat)

def Format.isOld : Format → Bool
  | .old _ => true
  | .recent _ => false

/-- The place in a stream where a response is complete enough to be recognised: the number of characters
after it. -/
structure Site where
  format : Format
  after : ℕ

def sites : List Block → List Site
  | [] => []
  | .line _ :: bs => sites bs
  | .old s :: bs => ⟨.old s, s.tail.length + (flat bs).length⟩ :: sites bs
  | .recent s :: bs => ⟨.recent s, (flat bs).length⟩ :: sites bs

/-- What is found at a site when `left` characters are still to come. -/
def Site.resultAt (x : Site) (left : ℕ) : BridgeDiscoveryResult :=
  match x.format with
  | .old s => s.resultAt (x.after - left)
  | .recent s => s.result

theorem flat_cons (b : Block) (bs : List Block) : flat (b :: bs) = b.text ++ flat bs := by
  simp [flat]

/-- The id line in a window on what follows the line that names the root device. -/
theorem OldFormat.head_bridgeId (s : OldFormat) {bs : List Block} (hbs : Valid (.old s :: bs)) {t f : List Char}
    (ht : s.tail ++ flat bs = t ++ f) :
    ∃ m bs', (Upnp.bridgeId.ways t).head? = some m ∧ Valid bs' ∧ flat bs' = m.2 ++ f ∧ sites bs' = sites bs ∧
      resultOf (s.captures m.1) = s.resultAt t.length := by
  have hempty : Clean [] ∧ ¬ IsServer [] := ⟨by simp [Clean], not_isServer (by simp)⟩
  cases hid : s.bridgeId with
  | none =>
    rw [OldFormat.tail, hid] at ht
    have hprefix : ¬ idStart <+: t := by
      intro h
      have h := h.trans (List.prefix_append t f)
      rw [← ht] at h
      exact hbs.1 hid ((List.prefix_append_right_inj crlf).mp h)
    refine ⟨_, .line [] :: bs, head_bridgeId_of_not_prefix hprefix, ⟨hempty.1, hempty.2, hbs.2⟩, ?_, rfl, ?_⟩
    · rw [flat_cons]
      exact ht
    · rw [OldFormat.captures, resultOf_nil, OldFormat.resultAt, OldFormat.idAt, hid]
  | some i =>
    have hi : Clean i.text ∧ ¬ IsServer i.text :=
      ⟨i.clean_text, not_isServer (by rw [BridgeIdLine.text, head_idField]; decide)⟩
    have hline : idStart ++ ((i.space ++ i.id) ++ (crlf ++ flat bs)) = t ++ f := by
      rw [← ht, OldFormat.tail, hid]
      simp only [idStart, BridgeIdLine.text, Option.elim_some, List.append_assoc]
    rcases Nat.lt_or_ge t.length idStart.length with hlt | hge
    · -- the piece ends before the id line is recognised
      have hprefix : ¬ idStart <+: t := fun h => by
        have := h.length_le
        omega
      refine ⟨_, .line [] :: .line i.text :: bs, head_bridgeId_of_not_prefix hprefix,
        ⟨hempty.1, hempty.2, hi.1, hi.2, hbs.2⟩, ?_, rfl, ?_⟩
      · rw [flat_cons, flat_cons, ← hline]
        simp only [Block.text, idStart, BridgeIdLine.text, List.nil_append, List.append_assoc]
      · simp only [OldFormat.captures, resultOf_nil, OldFormat.resultAt, OldFormat.idAt, hid, hlt, if_true]
    · -- the id is read as far as the piece goes
      obtain ⟨t, rfl⟩ : idStart <+: t :=
        List.prefix_of_prefix_length_le ⟨_, hline⟩ (List.prefix_append t f) hge
      rw [List.append_assoc idStart t f] at hline
      obtain ⟨htaken, hleft⟩ := window_append (List.append_cancel_left hline)
      rw [List.take_append, List.append_assoc] at htaken
      have hspace : ∀ c ∈ i.space.take t.length, isSpace c = true := by
        intro c hc
        rcases i.space_blank c (List.mem_of_mem_take hc) with rfl | rfl <;> rfl
      have hid' : ∀ c ∈ i.id.take (t.length - i.space.length), isAlnum c = true :=
        fun c hc => i.id_alnum c (List.mem_of_mem_take hc)
      have hlt : i.id.take (t.length - i.space.length) = [] → t.length - (i.space ++ i.id).length = 0 := by
        intro h
        rcases List.take_eq_nil_iff.mp h with h | h
        · simp only [List.length_append]
          omega
        · exact absurd h i.id_ne_nil
      have hend : (crlf ++ flat bs).take (t.length - (i.space ++ i.id).length) = [] ∨
          ∃ u, (crlf ++ flat bs).take (t.length - (i.space ++ i.id).length) = '\r' :: u := by
        rcases Nat.eq_zero_or_pos (t.length - (i.space ++ i.id).length) with h | h
        · exact Or.inl (by rw [h, List.take_zero])
        · obtain ⟨n, hn⟩ := Nat.exists_eq_add_of_lt h
          exact Or.inr ⟨_, by rw [hn, Nat.zero_add]; rfl⟩
      obtain ⟨w, hw⟩ := Upnp.head_bridgeId hspace hid' (fun h => by rw [hlt h, List.take_zero]) hend
      rw [← htaken] at hw
      have hclean : Clean ((i.space ++ i.id).drop t.length) := fun c hc => i.clean c (List.mem_of_mem_drop hc)
      have hserver : ¬ IsServer ((i.space ++ i.id).drop t.length) :=
        not_isServer_of_colon fun hc => i.colon (List.mem_of_mem_drop hc)
      refine ⟨_, .line ((i.space ++ i.id).drop t.length) :: bs, hw, ⟨hclean, hserver, hbs.2⟩, ?_, rfl, ?_⟩
      · rw [flat_cons, ← hleft, Block.text, List.append_assoc]
      · have hnot : ¬ (idStart ++ t).length < idStart.length := by
          rw [List.length_append]
          omega
        have hcount : (idStart ++ t).length - (idStart.length + i.space.length) = t.length - i.space.length := by
          rw [List.length_append]
          omega
        simp only [OldFormat.captures, resultOf_id, OldFormat.resultAt, OldFormat.idAt, hid, hnot, if_false, hcount]

/-! ### One turn of a loop -/

theorem after_lt {bs : List Block} {x : Site} (hx : x ∈ sites bs) : x.after < (flat bs).length := by
  induction bs with
  | nil => simp [sites] at hx
  | cons b bs ih =>
    rw [flat_cons, List.length_append]
    cases b with
    | line l =>
      have := ih hx
      omega
    | old s =>
      rcases List.mem_cons.mp hx with rfl | hx
      · have hpos := s.base_pos
        simp only [Block.text, List.length_append]
        omega
      · have := ih hx
        omega
    | recent s =>
      rcases List.mem_cons.mp hx with rfl | hx
      · have hpos := s.text_pos
        simp only [Block.text]
        omega
      · have := ih hx
        omega

/-- A line that follows another is not that of a bridge. -/
theorem server_window {bs : List Block} (hbs : Valid bs) {r : Regex Char} {w f : List Char}
    (h : flat bs = w ++ f) : (line serverLine r).ways w = [] := by
  cases bs with
  | nil =>
    obtain ⟨rfl, -⟩ := List.append_eq_nil_iff.mp h.symm
    exact ways_line_of_lf rejects_serverLine (by simp)
  | cons b bs =>
    rw [flat_cons] at h
    cases b with
    | line l =>
      rw [Block.text, List.append_assoc] at h
      exact ways_line_window rejects_serverLine hbs.1 h (Or.inl (whole_serverLine hbs.2.1))
    | old s =>
      simp only [Block.text, OldFormat.base, List.append_assoc] at h
      exact ways_line_window rejects_serverLine s.clean_location h
        (Or.inl (whole_serverLine (not_isServer (by rw [s.head_location]; decide))))
    | recent s =>
      simp only [Block.text, NewFormat.text, List.append_assoc] at h
      exact ways_line_window rejects_serverLine s.clean_location h
        (Or.inl (whole_serverLine (not_isServer (by rw [s.head_location]; decide))))

/-- What a search in the window `w` on a stream says, for a loop that looks for responses of one format: it
finds the first site of this format that `f`, what is still to come, leaves visible. -/
def Finds (r : Regex Char) (body : Captures Char → BridgeDiscoveryResult) (old : Bool) (bs : List Block)
    (w f : List Char) : Prop :=
  (r.search w = none ∧ ∀ x ∈ sites bs, x.format.isOld = old → x.after < f.length) ∨
    ∃ c w' bs' passed x, r.search w = some (c, w') ∧ w'.length < w.length ∧ Valid bs' ∧ flat bs' = w' ++ f ∧
      sites bs = passed ++ x :: sites bs' ∧ (∀ y ∈ passed, y.format.isOld ≠ old) ∧ x.format.isOld = old ∧
      f.length ≤ x.after ∧ body c = x.resultAt f.length

/-- Text that the search passes over. -/
theorem Finds.of_search_eq {r : Regex Char} {body : Captures Char → BridgeDiscoveryResult} {old : Bool}
    {bs bs' : List Block} {w w' f : List Char} (front : List Site) (h : Finds r body old bs' w' f)
    (hsearch : r.search w = r.search w') (hlt : w'.length < w.length) (hsites : sites bs = front ++ sites bs')
    (hfront : ∀ y ∈ front, y.format.isOld ≠ old) : Finds r body old bs w f := by
  rcases h with ⟨hnone, hmissed⟩ | ⟨c, w'', bs'', passed, x, hsome, hlt', hbs, hflat, hsplit, hpassed, hx⟩
  · refine Or.inl ⟨hsearch.trans hnone, fun x hx hold => ?_⟩
    rw [hsites] at hx
    rcases List.mem_append.mp hx with hx | hx
    · exact absurd hold (hfront x hx)
    · exact hmissed x hx hold
  · refine Or.inr ⟨c, w'', bs'', front ++ passed, x, hsearch.trans hsome, by omega, hbs, hflat, ?_, ?_, hx⟩
    · rw [hsites, hsplit, List.append_assoc]
    · intro y hy
      rcases List.mem_append.mp hy with hy | hy
      · exact hfront y hy
      · exact hpassed y hy

/-- The first loop. -/
theorem finds_old {bs : List Block} (hbs : Valid bs) {w f : List Char} (h : flat bs = w ++ f) :
    Finds upnpResponseRegex resultOf true bs w f := by
  induction bs generalizing w with
  | nil =>
    obtain ⟨rfl, -⟩ := List.append_eq_nil_iff.mp h.symm
    exact Or.inl ⟨search_of_lf rejects_locationLine.1 (by simp), by simp [sites]⟩
  | cons b bs ih =>
    rw [flat_cons] at h
    cases b with
    | line l =>
      rw [Block.text, List.append_assoc] at h
      obtain ⟨hl, -, hbs⟩ := hbs
      rcases search_window hl h (fun w' h => server_window hbs h) with ⟨hnone, hlt⟩ | ⟨w', h', hlt, hsearch⟩
      · exact Or.inl ⟨hnone, fun x (hx : x ∈ sites bs) _ => (after_lt hx).trans hlt⟩
      · exact (ih hbs h').of_search_eq [] hsearch hlt rfl (by simp)
    | old s =>
      rw [Block.text, List.append_assoc] at h
      rcases Nat.lt_or_ge (s.tail ++ flat bs).length f.length with hlt | hge
      · have husn : ∀ w', s.usn ++ (s.tail ++ flat bs) = w' ++ f → (seq usnLine bridgeId).ways w' = [] := by
          intro w' h'
          by_contra hne
          obtain ⟨m, hm⟩ := List.exists_mem_of_ne_nil _ hne
          obtain ⟨k, hk, -⟩ := mem_ways_seq.mp hm
          exact absurd hk (s.ways_usnLine_window h' hlt k)
        have hst : ∀ w', s.stText ++ (crlf ++ (s.usn ++ (s.tail ++ flat bs))) = w' ++ f →
            (line stLine (seq usnLine bridgeId)).ways w' = [] :=
          fun w' h => ways_line_window rejects_stLine s.clean_stText h (Or.inr husn)
        refine Or.inl ⟨s.search_window h hlt hst, fun x hx _ => ?_⟩
        rw [List.length_append] at hlt
        rcases List.mem_cons.mp hx with rfl | hx
        · exact hlt
        · have := after_lt hx
          omega
      · obtain ⟨t, rfl, ht⟩ := exists_window h hge
        obtain ⟨m, bs', hm, hbs', hflat, hsites, hresult⟩ := s.head_bridgeId hbs ht
        have hend : t = [] ∨ ∃ u, t = '\r' :: u := by
          obtain ⟨u, hu⟩ := s.exists_tail
          rw [hu] at ht
          cases t with
          | nil => exact Or.inl rfl
          | cons c t => exact Or.inr ⟨t, by rw [(List.cons.inj ht).1]⟩
        have hsuffix : m.2.length ≤ t.length := (suffix_of_mem_ways (List.mem_of_mem_head? hm)).length_le
        have hlength := congrArg List.length ht
        simp only [List.length_append] at hlength
        refine Or.inr ⟨_, m.2, bs', [], ⟨.old s, _⟩, search_of_head (s.head_ways hend hm), ?_, hbs', hflat,
          by rw [hsites]; rfl, by simp, rfl, ?_, ?_⟩
        · have := s.base_pos
          rw [List.length_append]
          omega
        · rw [List.length_append] at hge
          exact hge
        · rw [hresult, Site.resultAt]
          exact congrArg s.resultAt (by simp only; omega)
    | recent s =>
      have hst : ∀ w', s.idLine ++ (crlf ++ flat bs) = w' ++ f →
          (line stLine (seq usnLine bridgeId)).ways w' = [] :=
        fun w' h => ways_line_window rejects_stLine s.clean_idLine h (Or.inl (whole_eq_nil
          (ways_text_eq_nil (c := 'S') (by decide) (by rw [NewFormat.idLine, head_idField]; decide) _)))
      rcases s.search_window h hst (fun w' h => server_window (show Valid bs from hbs) h) with
        ⟨hnone, hlt⟩ | ⟨w', h', hlt, hsearch⟩
      · refine Or.inl ⟨hnone, fun x hx hold => ?_⟩
        rcases List.mem_cons.mp hx with rfl | hx
        · exact hlt
        · exact (after_lt hx).trans hlt
      · exact (ih hbs h').of_search_eq [⟨.recent s, (flat bs).length⟩] hsearch hlt rfl
          (by simp [Format.isOld])

/-- The second loop, on what the first one leaves. -/
theorem finds_recent {bs : List Block} (hbs : Valid bs) {w f : List Char} (h : flat bs = w ++ f)
    (hold : ∀ x ∈ sites bs, x.format.isOld = true → x.after < f.length) :
    Finds upnpResponseRegex19 resultOf19 false bs w f := by
  induction bs generalizing w with
  | nil =>
    obtain ⟨rfl, -⟩ := List.append_eq_nil_iff.mp h.symm
    exact Or.inl ⟨search_of_lf rejects_locationLine.1 (by simp), by simp [sites]⟩
  | cons b bs ih =>
    rw [flat_cons] at h
    cases b with
    | line l =>
      rw [Block.text, List.append_assoc] at h
      obtain ⟨hl, -, hbs⟩ := hbs
      rcases search_window hl h (fun w' h => server_window hbs h) with ⟨hnone, hlt⟩ | ⟨w', h', hlt, hsearch⟩
      · exact Or.inl ⟨hnone, fun x (hx : x ∈ sites bs) _ => (after_lt hx).trans hlt⟩
      · exact (ih hbs h' hold).of_search_eq [] hsearch hlt rfl (by simp)
    | old s =>
      rw [Block.text, List.append_assoc] at h
      have hlt : s.tail.length + (flat bs).length < f.length :=
        hold ⟨.old s, s.tail.length + (flat bs).length⟩ (List.mem_cons_self ..) rfl
      have hst : ∀ w', s.stText ++ (crlf ++ (s.usn ++ (s.tail ++ flat bs))) = w' ++ f →
          idLine19.ways w' = [] := by
        intro w' h'
        refine ways_text_eq_nil (c := 'h') (by decide) ?_ _
        have hhead := congrArg List.head? h'
        rw [List.head?_append, s.head_stText] at hhead
        cases w' with
        | nil => simp
        | cons c w' =>
          rw [List.cons_append, List.head?_cons] at hhead
          rw [List.head?_cons, ← hhead]
          simp
      refine Or.inl ⟨s.search_window h (by simpa using hlt) hst, fun x hx _ => ?_⟩
      rcases List.mem_cons.mp hx with rfl | hx
      · exact hlt
      · have := after_lt hx
        omega
    | recent s =>
      rcases Nat.lt_or_ge (flat bs).length f.length with hlt | hge
      · have hid : ∀ w', s.idLine ++ (crlf ++ flat bs) = w' ++ f → idLine19.ways w' = [] := by
          intro w' h'
          rcases window_line s.clean_idLine h' with ⟨hlf, -⟩ | ⟨w'', -, h''⟩
          · exact idLine19_of_lf hlf
          · have hlength := congrArg List.length h''
            rw [List.length_append] at hlength
            omega
        rcases s.search_window h hid (fun w' h => server_window (show Valid bs from hbs) h) with ⟨hnone, -⟩ | ⟨w', h', -, -⟩
        · refine Or.inl ⟨hnone, fun x hx _ => ?_⟩
          rcases List.mem_cons.mp hx with rfl | hx
          · exact hlt
          · exact (after_lt hx).trans hlt
        · have hlength := congrArg List.length h'
          rw [List.length_append] at hlength
          omega
      · obtain ⟨t, rfl, ht⟩ := exists_window h hge
        refine Or.inr ⟨_, t, bs, [], ⟨.recent s, _⟩, search_of_head (s.head_ways t), ?_, hbs, ht, rfl, by simp,
          rfl, hge, resultOf19_id _ _ _⟩
        have := s.text_pos
        simp only [Block.text, List.length_append]
        omega

/-! ### The loops -/

/-- A loop finds the sites of its format up to the last one that is visible. -/
theorem parseWhile_of_finds {r : Regex Char} {body : Captures Char → BridgeDiscoveryResult} {old : Bool}
    {f : List Char} {Q : Site → Prop} (hfinds : ∀ {bs w}, Valid bs → (∀ x ∈ sites bs, Q x) → flat bs = w ++ f →
      Finds r body old bs w f) (fuel : ℕ) {bs : List Block} {w : List Char} (hbs : Valid bs)
    (hQ : ∀ x ∈ sites bs, Q x) (h : flat bs = w ++ f) (hfuel : w.length ≤ fuel) :
    ∃ bs' w' xs, parseWhile r body fuel w =
        ((xs.filter (·.format.isOld = old)).map (·.resultAt f.length), w') ∧
      Valid bs' ∧ flat bs' = w' ++ f ∧ sites bs = xs ++ sites bs' ∧
      (∀ x ∈ sites bs', x.format.isOld = old → x.after < f.length) ∧
      ∀ x, xs.getLast? = some x → x.format.isOld = old ∧ f.length ≤ x.after := by
  induction fuel generalizing bs w with
  | zero =>
    refine ⟨bs, w, [], rfl, hbs, h, rfl, ?_, by simp⟩
    rcases hfinds hbs hQ h with ⟨-, hmissed⟩ | ⟨c, w', bs', passed, x, -, hlt, -⟩
    · exact hmissed
    · omega
  | succ fuel ih =>
    rcases hfinds hbs hQ h with ⟨hnone, hmissed⟩ |
      ⟨c, w', bs', passed, x, hsome, hlt, hbs', hflat, hsites, hpassed, hold, hvisible, hresult⟩
    · exact ⟨bs, w, [], by rw [parseWhile, hnone]; rfl, hbs, h, rfl, hmissed, by simp⟩
    · have hQ' : ∀ y ∈ sites bs', Q y := fun y hy => hQ y (by rw [hsites]; simp [hy])
      obtain ⟨bs'', w'', xs, hloop, hbs'', hflat'', hsplit, hmissed, hlast⟩ := ih hbs' hQ' hflat (by omega)
      refine ⟨bs'', w'', passed ++ x :: xs, ?_, hbs'', hflat'', ?_, hmissed, ?_⟩
      · have hpassed' : passed.filter (·.format.isOld = old) = [] := by
          rw [List.filter_eq_nil_iff]
          simpa using hpassed
        rw [parseWhile, hsome, List.filter_append, hpassed', List.filter_cons_of_pos (by simpa using hold)]
        simp only [hloop, hresult, List.nil_append, List.map_cons]
      · rw [hsites, hsplit, List.append_assoc]
        rfl
      · intro y hy
        rw [List.getLast?_append] at hy
        cases hxs : xs.getLast? with
        | none =>
          obtain rfl := List.getLast?_eq_none_iff.mp hxs
          obtain rfl : x = y := by simpa using hy
          exact ⟨hold, hvisible⟩
        | some z =>
          obtain rfl : z = y := by
            rw [List.getLast?_cons, hxs] at hy
            simpa using hy
          exact hlast z hxs

/-- Later sites have less after them. -/
theorem sites_pairwise (bs : List Block) : (sites bs).Pairwise fun x y => y.after < x.after := by
  induction bs with
  | nil => exact .nil
  | cons b bs ih =>
    cases b with
    | line l => exact ih
    | old s =>
      refine List.pairwise_cons.mpr ⟨fun y hy => ?_, ih⟩
      have := after_lt hy
      simp only
      omega
    | recent s => exact List.pairwise_cons.mpr ⟨fun y hy => after_lt hy, ih⟩

/-- Before a visible site all are visible. -/
theorem visible_of_last {xs : List Site} (hxs : xs.Pairwise fun x y => y.after < x.after) {n : ℕ}
    (hlast : ∀ x, xs.getLast? = some x → n ≤ x.after) : ∀ x ∈ xs, n ≤ x.after := by
  intro x hx
  rcases List.eq_nil_or_concat xs with rfl | ⟨ys, y, rfl⟩
  · exact absurd hx (by simp)
  · rw [List.concat_eq_append] at hx hxs hlast
    have hy : n ≤ y.after := hlast y (by simp)
    rcases List.mem_append.mp hx with hx | hx
    · have := (List.pairwise_append.mp hxs).2.2 x hx y (by simp)
      omega
    · obtain rfl := List.mem_singleton.mp hx
      exact hy

theorem rtakeWhile_append {α : Type*} {p : α → Bool} {xs ys : List α} (hys : ∀ y ∈ ys, p y = true)
    (hxs : ∀ x, xs.getLast? = some x → p x = false) : (xs ++ ys).rtakeWhile p = ys := by
  rw [List.rtakeWhile, List.reverse_append, List.takeWhile_append_of_pos (by simpa using hys)]
  have hnone : xs.reverse.takeWhile p = [] := by
    cases hrev : xs.reverse with
    | nil => rfl
    | cons x l =>
      have hx : xs.getLast? = some x := by rw [← List.head?_reverse, hrev, List.head?_cons]
      exact List.takeWhile_cons_of_neg (by simp [hxs x hx])
  rw [hnone, List.append_nil, List.reverse_reverse]

/-- What a received piece brings when the sites `xs` become visible with it and `left` characters are still to
come: the responses of the old format, and those of the newer one after the last of them. -/
def collected (left : ℕ) (xs : List Site) : List BridgeDiscoveryResult :=
  (xs.filter (·.format.isOld)).map (·.resultAt left) ++ (xs.rtakeWhile (!·.format.isOld)).map (·.resultAt left)

/-- **What `parse_response` finds in a window on a stream.** -/
theorem parseResponse_window {bs : List Block} (hbs : Valid bs) {w f : List Char} (h : flat bs = w ++ f) :
    ∃ bs' w', parseResponse w = (collected f.length ((sites bs).filter (f.length ≤ ·.after)), w') ∧
      Valid bs' ∧ flat bs' = w' ++ f ∧ sites bs' = (sites bs).filter (·.after < f.length) := by
  obtain ⟨bs₁, w₁, xs, hloop, hbs₁, hflat₁, hsites, hold, hlast⟩ :=
    parseWhile_of_finds (Q := fun _ => True) (fun hbs _ h => finds_old hbs h) w.length hbs (by simp) h le_rfl
  obtain ⟨bs₂, w₂, ys, hloop₂, hbs₂, hflat₂, hsites₂, hrecent, hlast₂⟩ :=
    parseWhile_of_finds (Q := fun x => x.format.isOld = true → x.after < f.length)
      (fun hbs hQ h => finds_recent hbs h hQ) w₁.length hbs₁ hold hflat₁ le_rfl
  have hpair := sites_pairwise bs
  rw [hsites, hsites₂, List.pairwise_append, List.pairwise_append] at hpair
  have hxs : ∀ x ∈ xs, f.length ≤ x.after := visible_of_last hpair.1 fun x hx => (hlast x hx).2
  have hys : ∀ y ∈ ys, f.length ≤ y.after := visible_of_last hpair.2.1.1 fun y hy => (hlast₂ y hy).2
  have hrecents : ∀ y ∈ ys, y.format.isOld = false := by
    intro y hy
    by_contra hne
    have hlt := hold y (by rw [hsites₂]; exact List.mem_append_left _ hy) (Bool.of_not_eq_false hne)
    have := hys y hy
    omega
  have hrest : ∀ z ∈ sites bs₂, z.after < f.length := by
    intro z hz
    cases hkind : z.format.isOld with
    | true => exact hold z (by rw [hsites₂]; exact List.mem_append_right _ hz) hkind
    | false => exact hrecent z hz hkind
  have hvisible : (sites bs).filter (f.length ≤ ·.after) = xs ++ ys := by
    rw [hsites, hsites₂, List.filter_append, List.filter_append,
      List.filter_eq_self.mpr (by simpa using hxs), List.filter_eq_self.mpr (by simpa using hys),
      List.filter_eq_nil_iff.mpr (by simpa using hrest), List.append_nil]
  have hleft : (sites bs).filter (·.after < f.length) = sites bs₂ := by
    rw [hsites, hsites₂, List.filter_append, List.filter_append,
      List.filter_eq_nil_iff.mpr (by simpa using hxs), List.filter_eq_nil_iff.mpr (by simpa using hys),
      List.filter_eq_self.mpr (by simpa using hrest), List.nil_append, List.nil_append]
  refine ⟨bs₂, w₂, ?_, hbs₂, hflat₂, hleft.symm⟩
  have hlater : (xs ++ ys).rtakeWhile (!·.format.isOld) = ys :=
    rtakeWhile_append (by simpa using hrecents) fun x hx => by simp [(hlast x hx).1]
  have hnone : ys.filter (·.format.isOld) = [] := List.filter_eq_nil_iff.mpr (by simpa using hrecents)
  have hall : ys.filter (·.format.isOld = false) = ys := List.filter_eq_self.mpr (by simpa using hrecents)
  have holds : (xs ++ ys).filter (·.format.isOld) = xs.filter (·.format.isOld) := by
    rw [List.filter_append, hnone, List.append_nil]
  rw [hvisible, collected, hlater, holds, parseResponse, hloop]
  simp only [hloop₂, hall, Bool.decide_eq_true]

/-! ### Pieces -/

/-- What the pieces bring when the sites `xs` are to come. -/
def outcome : List (List Char) → List Site → List BridgeDiscoveryResult
  | [], _ => []
  | _ :: pieces, xs =>
    collected pieces.flatten.length (xs.filter (pieces.flatten.length ≤ ·.after)) ++
      outcome pieces (xs.filter (·.after < pieces.flatten.length))

/-- Receiving a stream. -/
theorem receive_outcome (pieces : List (List Char)) {bs : List Block} (hbs : Valid bs)
    {s : BridgeDiscoveryUpnpTask} (h : flat bs = s.unparsedListenResult ++ pieces.flatten)
    (hlt : ∀ x ∈ sites bs, x.after < pieces.flatten.length) :
    (pieces.foldl BridgeDiscoveryUpnpTask.receive s).unfilteredResults =
      s.unfilteredResults ++ outcome pieces (sites bs) := by
  induction pieces generalizing bs s with
  | nil => simp [outcome]
  | cons p pieces ih =>
    rw [List.foldl_cons, outcome]
    rw [List.flatten_cons] at h hlt
    cases hp : p with
    | nil =>
      rw [hp, List.nil_append] at h hlt
      have hnone : (sites bs).filter (pieces.flatten.length ≤ ·.after) = [] := by
        rw [List.filter_eq_nil_iff]
        simpa using hlt
      have hall : (sites bs).filter (·.after < pieces.flatten.length) = sites bs := by
        rw [List.filter_eq_self]
        simpa using hlt
      rw [hnone, hall]
      exact ih hbs h hlt
    | cons c p' =>
      rw [← List.append_assoc] at h
      obtain ⟨bs', w', hparse, hbs', hflat, hsites⟩ := parseResponse_window hbs h
      have hstep : s.receive p = ⟨w', s.unfilteredResults ++
          collected pieces.flatten.length ((sites bs).filter (pieces.flatten.length ≤ ·.after))⟩ := by
        rw [BridgeDiscoveryUpnpTask.receive, hparse, hp]
        rfl
      rw [← hp, hstep, ih hbs' hflat ?_, hsites, List.append_assoc]
      intro x hx
      rw [hsites] at hx
      simpa using (List.mem_filter.mp hx).2

/-- What a response says when it is complete. -/
def Format.result : Format → BridgeDiscoveryResult
  | .old s => s.resultAt s.tail.length
  | .recent s => s.result

theorem OldFormat.resultAt_of_le (s : OldFormat) {n : ℕ} (hn : s.tail.length ≤ n) :
    s.resultAt n = s.resultAt s.tail.length := by
  have hid : s.idAt n = s.idAt s.tail.length := by
    unfold OldFormat.idAt
    cases hid : s.bridgeId with
    | none => rfl
    | some i =>
      have htail : s.tail.length = idStart.length + i.space.length + (i.id.length + crlf.length) := by
        simp only [OldFormat.tail, hid, Option.elim_some, BridgeIdLine.text, idStart, List.length_append]
        omega
      have hfull : ∀ k, s.tail.length ≤ k →
          ¬ k < idStart.length ∧ i.id.take (k - (idStart.length + i.space.length)) = i.id :=
        fun k hk => ⟨by omega, List.take_of_length_le (by omega)⟩
      simp only [hfull n hn, hfull _ le_rfl, if_false]
  rw [OldFormat.resultAt, hid, OldFormat.resultAt]

theorem resultAt_zero {bs : List Block} {x : Site} (hx : x ∈ sites bs) : x.resultAt 0 = x.format.result := by
  induction bs with
  | nil => simp [sites] at hx
  | cons b bs ih =>
    cases b with
    | line l => exact ih hx
    | old s =>
      rcases List.mem_cons.mp hx with rfl | hx
      · exact s.resultAt_of_le (by simp)
      · exact ih hx
    | recent s =>
      rcases List.mem_cons.mp hx with rfl | hx
      · rfl
      · exact ih hx

/-! ### What is kept -/

/-- What is still to come after the first piece behind which there are at most `after` characters. -/
def leftAt (after : ℕ) : List (List Char) → ℕ
  | [] => 0
  | _ :: pieces => if pieces.flatten.length ≤ after then pieces.flatten.length else leftAt after pieces

/-- **A piece ends between each response of the newer format and each later one of the old format**, when the first
one is complete and the other is not. -/
def Separated (pieces : List (List Char)) (xs : List Site) : Prop :=
  xs.Pairwise fun x y => x.format.isOld = false → y.format.isOld = true →
    ∃ qs, qs <:+ pieces ∧ y.after < qs.flatten.length ∧ qs.flatten.length ≤ x.after

/-- **The responses of the old format say together what they say when they are complete**, each read at the end of the
first piece that has the line that names the root device. -/
def IdsKept (pieces : List (List Char)) (xs : List Site) : Prop :=
  ((xs.filter (·.format.isOld)).map fun x => x.resultAt (leftAt x.after pieces)).Perm
    ((xs.filter (·.format.isOld)).map (·.format.result))

/-- The responses of the newer format that are not thrown away. -/
def kept : List (List Char) → List Site → List Site
  | [], _ => []
  | _ :: pieces, xs =>
    (xs.filter (pieces.flatten.length ≤ ·.after)).rtakeWhile (!·.format.isOld) ++
      kept pieces (xs.filter (·.after < pieces.flatten.length))

theorem resultAt_of_recent {x : Site} (hx : x.format.isOld = false) (left : ℕ) :
    x.resultAt left = x.format.result := by
  obtain ⟨format, after⟩ := x
  cases format with
  | old s => exact absurd hx (by simp [Format.isOld])
  | recent s => rfl

/-- The ids are kept when each response of the old format is received up to the end of its id line. -/
theorem idsKept_of_tail {pieces : List (List Char)} {xs : List Site}
    (h : ∀ x ∈ xs, ∀ s, x.format = .old s → leftAt x.after pieces + s.tail.length ≤ x.after) :
    IdsKept pieces xs := by
  have hresult : ∀ x ∈ xs.filter (·.format.isOld), x.resultAt (leftAt x.after pieces) = x.format.result := by
    intro x hx
    have hx := List.mem_of_mem_filter hx
    rw [Site.resultAt]
    cases hformat : x.format with
    | old s =>
      have := h x hx s hformat
      exact s.resultAt_of_le (by omega)
    | recent s => rfl
  rw [IdsKept, List.map_congr_left hresult]

/-- The visible sites come first. -/
theorem visible_append {xs : List Site} (hxs : xs.Pairwise fun x y => y.after < x.after) (n : ℕ) :
    xs.filter (n ≤ ·.after) ++ xs.filter (·.after < n) = xs := by
  induction xs with
  | nil => rfl
  | cons x xs ih =>
    obtain ⟨hx, hxs⟩ := List.pairwise_cons.mp hxs
    rcases Nat.lt_or_ge x.after n with hlt | hge
    · have hnone : xs.filter (n ≤ ·.after) = [] := by
        rw [List.filter_eq_nil_iff]
        intro y hy
        have := hx y hy
        simp only [decide_eq_true_eq]
        omega
      have hall : xs.filter (·.after < n) = xs := by
        rw [List.filter_eq_self]
        intro y hy
        have := hx y hy
        simp only [decide_eq_true_eq]
        omega
      rw [List.filter_cons_of_neg (by simpa using hlt), List.filter_cons_of_pos (by simpa using hlt), hnone,
        hall]
      rfl
    · rw [List.filter_cons_of_pos (by simpa using hge), List.filter_cons_of_neg (by simpa using hge),
        List.cons_append, ih hxs]

theorem outcome_perm (pieces : List (List Char)) {xs : List Site}
    (hxs : xs.Pairwise fun x y => y.after < x.after) (hlt : ∀ x ∈ xs, x.after < pieces.flatten.length) :
    (outcome pieces xs).Perm (((xs.filter (·.format.isOld)).map fun x => x.resultAt (leftAt x.after pieces)) ++
      (kept pieces xs).map (·.format.result)) := by
  induction pieces generalizing xs with
  | nil =>
    obtain rfl : xs = [] := List.eq_nil_iff_forall_not_mem.mpr fun x hx => by simpa using hlt x hx
    exact .refl _
  | cons p pieces ih =>
    have hsplit := visible_append hxs pieces.flatten.length
    have hV : ∀ x ∈ xs.filter (pieces.flatten.length ≤ ·.after), pieces.flatten.length ≤ x.after :=
      fun x hx => by simpa using (List.mem_filter.mp hx).2
    have hW : ∀ x ∈ xs.filter (·.after < pieces.flatten.length), x.after < pieces.flatten.length :=
      fun x hx => by simpa using (List.mem_filter.mp hx).2
    have hlater := ih (hxs.filter (·.after < pieces.flatten.length)) hW
    rw [outcome, kept]
    generalize xs.filter (pieces.flatten.length ≤ ·.after) = V at *
    generalize xs.filter (·.after < pieces.flatten.length) = W at *
    subst hsplit
    have hfirst : ∀ x ∈ V.filter (·.format.isOld),
        x.resultAt pieces.flatten.length = x.resultAt (leftAt x.after (p :: pieces)) :=
      fun x hx => by rw [leftAt, if_pos (hV x (List.mem_of_mem_filter hx))]
    have hsecond : ∀ x ∈ W.filter (·.format.isOld),
        x.resultAt (leftAt x.after pieces) = x.resultAt (leftAt x.after (p :: pieces)) :=
      fun x hx => by rw [leftAt, if_neg (not_le.mpr (hW x (List.mem_of_mem_filter hx)))]
    have hrecent : ∀ x ∈ V.rtakeWhile (!·.format.isOld), x.resultAt pieces.flatten.length = x.format.result :=
      fun x hx => resultAt_of_recent (by simpa using List.mem_rtakeWhile_imp hx) _
    rw [collected, List.map_congr_left hfirst, List.map_congr_left hrecent]
    rw [List.map_congr_left hsecond] at hlater
    rw [List.filter_append, List.map_append, List.map_append, List.append_assoc, List.append_assoc]
    exact ((hlater.append_left _).trans (List.perm_append_comm_assoc _ _ _)).append_left _

theorem rtakeWhile_sublist {α : Type*} (p : α → Bool) (xs : List α) : (xs.rtakeWhile p).Sublist (xs.filter p) := by
  have hsublist := (List.rtakeWhile_suffix p xs).sublist.filter p
  rwa [List.filter_eq_self.mpr fun x hx => List.mem_rtakeWhile_imp hx] at hsublist

/-- All that satisfies `p` is at the end when nothing follows it that does not. -/
theorem rtakeWhile_eq_filter {α : Type*} {p : α → Bool} {xs : List α} :
    xs.rtakeWhile p = xs.filter p ↔ xs.Pairwise fun x y => ¬ (p x = true ∧ p y = false) := by
  induction xs using List.reverseRecOn with
  | nil => simp
  | append_singleton xs x ih =>
    rw [List.rtakeWhile_concat, List.filter_append, List.pairwise_append]
    cases hx : p x with
    | true => simp [hx, ih]
    | false =>
      have hnone : xs.filter p = [] ↔ ∀ y ∈ xs, p y = false := by simp [List.filter_eq_nil_iff]
      simp only [hx, Bool.false_eq_true, if_false, List.filter_cons_of_neg, not_false_eq_true, List.filter_nil,
        List.append_nil, eq_comm (a := ([] : List α)), hnone]
      constructor
      · intro h
        have hnot : ∀ y ∈ xs, ∀ z, ¬ (p y = true ∧ p z = false) := by
          intro y hy z hp
          rw [h y hy] at hp
          exact Bool.false_ne_true hp.1
        exact ⟨List.pairwise_of_forall_mem_list fun y hy z _ => hnot y hy z, by simp,
          fun y hy z _ => hnot y hy z⟩
      · rintro ⟨-, -, h⟩ y hy
        have := h y hy x (by simp)
        simpa [hx] using this

theorem kept_sublist (pieces : List (List Char)) {xs : List Site} (hxs : xs.Pairwise fun x y => y.after < x.after) :
    (kept pieces xs).Sublist (xs.filter (!·.format.isOld)) := by
  induction pieces generalizing xs with
  | nil => exact List.nil_sublist _
  | cons p pieces ih =>
    have hsublist := (rtakeWhile_sublist (!·.format.isOld) (xs.filter (pieces.flatten.length ≤ ·.after))).append
      (ih (hxs.filter (·.after < pieces.flatten.length)))
    rw [← List.filter_append, visible_append hxs] at hsublist
    exact hsublist

theorem kept_eq_iff (pieces : List (List Char)) {xs : List Site} (hxs : xs.Pairwise fun x y => y.after < x.after)
    (hlt : ∀ x ∈ xs, x.after < pieces.flatten.length) :
    kept pieces xs = xs.filter (!·.format.isOld) ↔ Separated pieces xs := by
  induction pieces generalizing xs with
  | nil =>
    obtain rfl : xs = [] := List.eq_nil_iff_forall_not_mem.mpr fun x hx => by simpa using hlt x hx
    simp [kept, Separated]
  | cons p pieces ih =>
    have hsplit := visible_append hxs pieces.flatten.length
    have hV : ∀ x ∈ xs.filter (pieces.flatten.length ≤ ·.after), pieces.flatten.length ≤ x.after :=
      fun x hx => by simpa using (List.mem_filter.mp hx).2
    have hW : ∀ x ∈ xs.filter (·.after < pieces.flatten.length), x.after < pieces.flatten.length :=
      fun x hx => by simpa using (List.mem_filter.mp hx).2
    have hlater := ih (hxs.filter (·.after < pieces.flatten.length)) hW
    have hsublist := kept_sublist pieces (hxs.filter (·.after < pieces.flatten.length))
    rw [kept]
    generalize xs.filter (pieces.flatten.length ≤ ·.after) = V at *
    generalize xs.filter (·.after < pieces.flatten.length) = W at *
    subst hsplit
    have hfirst := rtakeWhile_sublist (!·.format.isOld) V
    have hboth : V.rtakeWhile (!·.format.isOld) ++ kept pieces W = (V ++ W).filter (!·.format.isOld) ↔
        V.rtakeWhile (!·.format.isOld) = V.filter (!·.format.isOld) ∧ kept pieces W = W.filter (!·.format.isOld) := by
      rw [List.filter_append]
      constructor
      · intro h
        have hlength := congrArg List.length h
        have hle := hfirst.length_le
        have hle' := hsublist.length_le
        simp only [List.length_append] at hlength
        exact ⟨hfirst.eq_of_length (by omega), hsublist.eq_of_length (by omega)⟩
      · rintro ⟨h, h'⟩
        rw [h, h']
    have hinner : V.Pairwise (fun x y => ¬ ((!x.format.isOld) = true ∧ (!y.format.isOld) = false)) ↔
        Separated (p :: pieces) V := by
      refine List.Pairwise.iff_of_mem fun {x y} hx hy => ?_
      have hnone : ¬ ∃ qs, qs <:+ p :: pieces ∧ y.after < qs.flatten.length ∧ qs.flatten.length ≤ x.after := by
        rintro ⟨qs, hqs, hlo, hhi⟩
        rcases List.suffix_cons_iff.mp hqs with rfl | hqs
        · have := hlt x (List.mem_append_left _ hx)
          omega
        · have := hV y hy
          have := hqs.sublist.flatten.length_le
          omega
      rw [iff_false_intro hnone, Bool.not_eq_true', Bool.not_eq_false', not_and]
    have houter : Separated pieces W ↔ Separated (p :: pieces) W := by
      refine List.Pairwise.iff_of_mem fun {x y} hx hy => imp_congr_right fun _ => imp_congr_right fun _ => ?_
      constructor
      · rintro ⟨qs, hqs, h⟩
        exact ⟨qs, hqs.trans (List.suffix_cons p pieces), h⟩
      · rintro ⟨qs, hqs, hlo, hhi⟩
        rcases List.suffix_cons_iff.mp hqs with rfl | hqs
        · have := hlt x (List.mem_append_right _ hx)
          omega
        · exact ⟨qs, hqs, hlo, hhi⟩
    rw [hboth, hlater, rtakeWhile_eq_filter, hinner, houter]
    refine (and_congr_right fun _ => ?_).trans List.pairwise_append.symm
    refine (and_iff_left fun x hx y hy _ _ => ?_).symm
    exact ⟨pieces, List.suffix_cons p pieces, hW y hy, hV x hx⟩

/-- **What the pieces bring is what the responses say** exactly when nothing is thrown away and every id is kept. -/
theorem outcome_perm_iff (pieces : List (List Char)) {xs : List Site}
    (hxs : xs.Pairwise fun x y => y.after < x.after) (hlt : ∀ x ∈ xs, x.after < pieces.flatten.length) :
    (outcome pieces xs).Perm (xs.map (·.format.result)) ↔ Separated pieces xs ∧ IdsKept pieces xs := by
  have houtcome := outcome_perm pieces hxs hlt
  have hall : (xs.map (·.format.result)).Perm ((xs.filter (·.format.isOld)).map (·.format.result) ++
      (xs.filter (!·.format.isOld)).map (·.format.result)) := by
    rw [← List.map_append]
    exact ((List.filter_append_perm _ xs).map _).symm
  rw [← kept_eq_iff pieces hxs hlt]
  constructor
  · intro h
    have hboth := (houtcome.symm.trans h).trans hall
    have hkept : kept pieces xs = xs.filter (!·.format.isOld) := by
      refine (kept_sublist pieces hxs).eq_of_length ?_
      have hlength := hboth.length_eq
      simp only [List.length_append, List.length_map] at hlength
      omega
    rw [hkept, List.perm_append_right_iff] at hboth
    exact ⟨hkept, hboth⟩
  · rintro ⟨hkept, hids⟩
    rw [hkept] at houtcome
    exact (houtcome.trans (hids.append_right _)).trans hall.symm

/-! ### Responses -/

/-- A header line of a response that is not the one that tells a bridge. -/
structure HeaderLine where
  text : List Char
  clean : Clean text
  not_server : ¬ IsServer text

/-- **Well-formed responses**: of a bridge in the old format, of a bridge with firmware 1.9 or later, and of another
device. A response of the old format without an id line has no id line after the one that names the root device. -/
inductive Response
  | old (before : List HeaderLine) (s : OldFormat) (after : List HeaderLine)
      (h : s.bridgeId = none → ∀ l ∈ after.head?, ¬ idField <+: l.text)
  | recent (before : List HeaderLine) (s : NewFormat) (after : List HeaderLine)
  | other (lines : List HeaderLine)

def headers (ls : List HeaderLine) : List Char := ls.flatMap fun l => l.text ++ crlf

/-- A response as it is sent; an empty line ends it. -/
def Response.text : Response → List Char
  | .old before s after _ => headers before ++ (s.base ++ (s.tail ++ (headers after ++ crlf)))
  | .recent before s after => headers before ++ (s.text ++ (headers after ++ crlf))
  | .other lines => headers lines ++ crlf

def lines (ls : List HeaderLine) : List Block := ls.map fun l => .line l.text

def Response.blocks : Response → List Block
  | .old before s after _ => lines before ++ (.old s :: (lines after ++ [.line []]))
  | .recent before s after => lines before ++ (.recent s :: (lines after ++ [.line []]))
  | .other ls => lines ls ++ [.line []]

/-- What is received of responses one after the other. -/
def stream (responses : List Response) : List Char := responses.flatMap Response.text

def blocks (responses : List Response) : List Block := responses.flatMap Response.blocks

theorem flat_append (bs bs' : List Block) : flat (bs ++ bs') = flat bs ++ flat bs' := List.flatMap_append

theorem flat_lines (ls : List HeaderLine) : flat (lines ls) = headers ls := by
  simp only [flat, lines, headers, List.flatMap_map]
  rfl

theorem Response.flat_blocks (r : Response) : flat r.blocks = r.text := by
  have hend : flat [.line []] = crlf := rfl
  cases r with
  | old before s after h =>
    simp only [Response.blocks, Response.text, flat_append, flat_cons, flat_lines, hend, Block.text,
      List.append_assoc]
  | recent before s after =>
    simp only [Response.blocks, Response.text, flat_append, flat_cons, flat_lines, hend, Block.text]
  | other ls => simp only [Response.blocks, Response.text, flat_append, flat_lines, hend]

theorem flat_blocks (responses : List Response) : flat (blocks responses) = stream responses := by
  rw [flat, blocks, stream, List.flatMap_assoc]
  exact List.flatMap_congr fun r _ => r.flat_blocks

/-- What is in front of a line without an end of line is in it. -/
theorem prefix_line {p l t : List Char} (hp : Clean p) (h : p <+: l ++ (crlf ++ t)) : p <+: l := by
  rcases Nat.lt_or_ge l.length p.length with hlt | hge
  · have hfront : l ++ ['\r'] <+: p := by
      refine List.prefix_of_prefix_length_le ?_ h (by simp; omega)
      rw [List.prefix_append_right_inj]
      exact ⟨'\n' :: t, rfl⟩
    exact absurd (hfront.subset (by simp)) hp.cr
  · exact List.prefix_of_prefix_length_le h (List.prefix_append _ _) hge

theorem valid_lines (ls : List HeaderLine) {bs : List Block} (hbs : Valid bs) : Valid (lines ls ++ bs) := by
  induction ls with
  | nil => exact hbs
  | cons l ls ih => exact ⟨l.clean, l.not_server, ih⟩

theorem sites_lines (ls : List HeaderLine) (bs : List Block) : sites (lines ls ++ bs) = sites bs := by
  induction ls with
  | nil => rfl
  | cons l ls ih => exact ih

theorem not_prefix_idField {after : List HeaderLine} (h : ∀ l ∈ after.head?, ¬ idField <+: l.text)
    (bs : List Block) : ¬ idField <+: flat (lines after ++ .line [] :: bs) := by
  intro hprefix
  cases after with
  | nil =>
    have hnil : idField <+: [] := prefix_line (t := flat bs) clean_idField hprefix
    exact absurd (List.prefix_nil.mp hnil) (by decide)
  | cons l ls =>
    rw [lines, List.map_cons, List.cons_append, flat_cons, Block.text, List.append_assoc] at hprefix
    exact h l rfl (prefix_line clean_idField hprefix)

theorem Response.valid (r : Response) {bs : List Block} (hbs : Valid bs) : Valid (r.blocks ++ bs) := by
  have hend : Valid (.line [] :: bs) := ⟨by simp [Clean], not_isServer (by simp), hbs⟩
  cases r with
  | old before s after h =>
    rw [Response.blocks, List.append_assoc, List.cons_append, List.append_assoc]
    exact valid_lines before ⟨fun hid => not_prefix_idField (h hid) bs, valid_lines after hend⟩
  | recent before s after =>
    rw [Response.blocks, List.append_assoc, List.cons_append, List.append_assoc]
    exact valid_lines before (valid_lines after hend)
  | other ls =>
    rw [Response.blocks, List.append_assoc]
    exact valid_lines ls hend

theorem valid_blocks (responses : List Response) : Valid (blocks responses) := by
  induction responses with
  | nil => trivial
  | cons r responses ih => exact r.valid ih

theorem formats_append (bs bs' : List Block) :
    (sites (bs ++ bs')).map (·.format) = (sites bs).map (·.format) ++ (sites bs').map (·.format) := by
  induction bs with
  | nil => rfl
  | cons b bs ih =>
    cases b with
    | line l => exact ih
    | old s => exact congrArg (Format.old s :: ·) ih
    | recent s => exact congrArg (Format.recent s :: ·) ih

/-- A response alone has one site at most, and `parse_response` finds it. -/
theorem Response.parseResponse_text (r : Response) :
    (parseResponse r.text).1 = (sites r.blocks).map (·.format.result) := by
  have hvalid : Valid r.blocks := by
    rw [← List.append_nil r.blocks]
    exact r.valid trivial
  obtain ⟨bs', w', hparse, -⟩ := parseResponse_window hvalid (f := []) (by rw [r.flat_blocks, List.append_nil])
  have hall : (sites r.blocks).filter (([] : List Char).length ≤ ·.after) = sites r.blocks := by
    rw [List.filter_eq_self]
    simp
  have hsites : sites r.blocks = [] ∨ ∃ x, sites r.blocks = [x] := by
    cases r with
    | old before s after h => exact Or.inr ⟨_, by rw [Response.blocks, sites_lines, sites, sites_lines]; rfl⟩
    | recent before s after => exact Or.inr ⟨_, by rw [Response.blocks, sites_lines, sites, sites_lines]; rfl⟩
    | other ls => exact Or.inl (by rw [Response.blocks, sites_lines]; rfl)
  rw [hparse, hall]
  rcases hsites with hnone | ⟨x, hone⟩
  · rw [hnone]
    rfl
  · have hresult : x.resultAt 0 = x.format.result := by
      have hx : x ∈ sites r.blocks := by simp [hone]
      exact resultAt_zero hx
    rw [hone]
    cases hold : x.format.isOld <;> simp [collected, hold, hresult, List.rtakeWhile]

theorem results_blocks (responses : List Response) :
    (sites (blocks responses)).map (·.format.result) = responses.flatMap fun r => (parseResponse r.text).1 := by
  induction responses with
  | nil => rfl
  | cons r responses ih =>
    have hformats := congrArg (List.map Format.result) (formats_append r.blocks (blocks responses))
    rw [List.map_append, List.map_map, List.map_map, List.map_map] at hformats
    rw [List.flatMap_cons, ← ih, r.parseResponse_text]
    exact hformats

/-! ### The listener -/

/-- **When the listener is insensitive to how responses are grouped**: what it collects from the pieces is what parsing
each response alone gives if and only if between each response of the newer format and each later one of the old
format a piece ends, and the ids of the old format are kept where a piece ends within an id line. -/
theorem listen_perm_iff (responses : List Response) (pieces : List (List Char))
    (h : pieces.flatten = stream responses) :
    (listen pieces).Perm (responses.flatMap fun r => (parseResponse r.text).1) ↔
      Separated pieces (sites (blocks responses)) ∧ IdsKept pieces (sites (blocks responses)) := by
  have hlt : ∀ x ∈ sites (blocks responses), x.after < pieces.flatten.length := by
    intro x hx
    rw [h, ← flat_blocks]
    exact after_lt hx
  have houtcome := receive_outcome pieces (valid_blocks responses) (s := {})
    (by rw [flat_blocks, h]; rfl) hlt
  rw [listen, houtcome, ← results_blocks]
  exact outcome_perm_iff pieces (sites_pairwise _) hlt

def word (s : String) (h : s.toList ≠ [] ∧ s.toList.all isDot = true) : Word :=
  ⟨s.toList, h.1, List.all_eq_true.mp h.2⟩

/-- The first lines of a response of the bridge at `ip`. -/
def announcement (ip version : String) (hip : ip.toList ≠ [] ∧ ip.toList.all isDot = true)
    (hversion : version.toList ≠ [] ∧ version.toList.all isDot = true) : Announcement where
  host := word ip hip
  path := word "80/description.xml" (by decide)
  products := word "FreeRTOS/6.0.5, UPnP/1.0, " (by decide)
  version := word version hversion

def recentExample : NewFormat where
  toAnnouncement := announcement "192.168.2.4" "1.9.0" (by decide) (by decide)
  space := [' ']
  space_blank := by simp
  first := '0'
  first_alnum := rfl
  more := word "01788FFFE0AE670" (by decide)

def oldExample : OldFormat where
  toAnnouncement := announcement "192.168.2.1" "0.1" (by decide) (by decide)
  st := word "upnp:rootdevice" (by decide)
  uuid := word "2f402f80-da50-11e1-9b23" (by decide)
  uuid_colon := by decide
  mac := "0017881055ec".toList
  mac_length := by decide
  mac_alnum := List.all_eq_true.mp (by decide)
  bridgeId := none

def oldResponse : Response := .old [] oldExample [] (by simp)

/-- A response of the newer format and one of the old format. -/
def responsesExample : List Response := [.recent [] recentExample [], oldResponse]

/-- In one piece with a later response of the old format the response of the newer format is lost. -/
theorem listen_not_perm : ¬ (listen [stream responsesExample]).Perm
    (responsesExample.flatMap fun r => (parseResponse r.text).1) := by
  intro h
  have hlength := h.length_eq
  revert hlength
  decide +kernel

/-- In two pieces both are found. -/
theorem listen_perm_iff_example : (listen (responsesExample.map Response.text)).Perm
    (responsesExample.flatMap fun r => (parseResponse r.text).1) := by
  obtain ⟨a, b, hsites, ha, hb⟩ : ∃ a b, sites (blocks responsesExample) =
      [⟨.recent recentExample, a⟩, ⟨.old oldExample, b⟩] ∧ a = 2 + oldResponse.text.length ∧ b = 4 :=
    ⟨_, _, rfl, by decide +kernel, by decide +kernel⟩
  refine (listen_perm_iff responsesExample (responsesExample.map Response.text) rfl).mpr ⟨?_, ?_⟩
  · rw [hsites, Separated, List.pairwise_pair]
    intro _ _
    have hlength : [oldResponse.text].flatten.length = oldResponse.text.length := by simp
    have hlong : 4 < oldResponse.text.length := by decide +kernel
    exact ⟨[oldResponse.text], ⟨[_], rfl⟩, by simp only; omega, by simp only; omega⟩
  · rw [hsites]
    refine idsKept_of_tail fun x hx s hs => ?_
    rcases List.mem_pair.mp hx with rfl | rfl
    · exact absurd hs (by simp)
    · obtain rfl : oldExample = s := by simpa using hs
      rw [hb]
      decide +kernel

end HueStream.Methods.Upnp
