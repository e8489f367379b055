import HueStream.Methods.BridgeDiscoveryUpnpTask

/-! # Responses of bridges

The two formats in which a bridge answers, and what the expressions of the listener make of a window on such a
response and on what follows it. A window ends somewhere in the text: `w ++ f` is the text, and `f` is still to come.

* `OldFormat.search_window`, `NewFormat.search_window`: an incomplete response, or one of the other format, is passed
  over line by line.
* `OldFormat.head_ways`, `NewFormat.head_ways`: a complete response is matched, and what it captures.
* `head_bridgeId`: the id line of the old format is read as far as the window goes. -/

namespace HueStream.Methods.Upnp

open HueStream.Lib Regex

/-! ### Well-formed responses -/

/-- No character of the text ends a line. -/
def Clean (w : List Char) : Prop := ∀ c ∈ w, isDot c = true

/-- A part of a line. -/
structure Word where
  text : List Char
  ne_nil : text ≠ []
  clean : Clean text

/-- The lines that both formats begin with. -/
structure Announcement where
  host : Word
  path : Word
  products : Word
  version : Word

def Announcement.location (a : Announcement) : List Char :=
  "LOCATION: http://".toList ++ (a.host.text ++ (":".toList ++ a.path.text))

/-- The line that tells a bridge from other devices. -/
def serverText (products version : Word) : List Char :=
  "SERVER:".toList ++ (products.text ++ ("IpBridge/".toList ++ version.text))

def Announcement.server (a : Announcement) : List Char := serverText a.products a.version

def IsServer (l : List Char) : Prop := ∃ products version, l = serverText products version

def idField : List Char := "hue-bridgeid:".toList

theorem clean_idField : Clean idField := by
  have hall : idField.all isDot = true := by decide
  exact List.all_eq_true.mp hall

/-- The id line of the old format. -/
structure BridgeIdLine where
  space : List Char
  space_blank : ∀ c ∈ space, c = ' ' ∨ c = '\t'
  id : List Char
  id_ne_nil : id ≠ []
  id_alnum : ∀ c ∈ id, isAlnum c = true

def BridgeIdLine.text (i : BridgeIdLine) : List Char := idField ++ (i.space ++ i.id)

/-- The old format: a line for the search target, the one that names the root device, and perhaps one for
the id. -/
structure OldFormat extends Announcement where
  st : Word
  uuid : Word
  uuid_colon : ':' ∉ uuid.text
  mac : List Char
  mac_length : mac.length = 12
  mac_alnum : ∀ c ∈ mac, isAlnum c = true
  bridgeId : Option BridgeIdLine

namespace OldFormat

variable (s : OldFormat)

def stText : List Char := "ST:".toList ++ s.st.text

def usn : List Char :=
  "USN: uuid:".toList ++ (s.uuid.text ++ ("-".toList ++ (s.mac ++ "::upnp:rootdevice".toList)))

/-- The lines that the response needs to be recognised. -/
def base : List Char :=
  s.location ++ (crlf ++ (s.server ++ (crlf ++ (s.stText ++ (crlf ++ s.usn)))))

/-- What follows up to the end of the line that ends the format. -/
def tail : List Char := (s.bridgeId.elim [] fun i => crlf ++ i.text) ++ crlf

end OldFormat

/-- The format of firmware 1.9 and later: the id line follows at once. -/
structure NewFormat extends Announcement where
  space : List Char
  space_blank : ∀ c ∈ space, c = ' ' ∨ c = '\t'
  first : Char
  first_alnum : isAlnum first = true
  more : Word

namespace NewFormat

variable (s : NewFormat)

def idLine : List Char := idField ++ (s.space ++ (s.first :: s.more.text))

def text : List Char := s.location ++ (crlf ++ (s.server ++ (crlf ++ (s.idLine ++ crlf))))

end NewFormat

/-! ### The lines -/

theorem clean_append {v w : List Char} : Clean (v ++ w) ↔ Clean v ∧ Clean w := List.forall_mem_append

theorem Clean.cr {w : List Char} (hw : Clean w) : '\r' ∉ w := fun h => by simpa [isDot] using hw _ h

theorem Clean.lf {w : List Char} (hw : Clean w) : '\n' ∉ w := fun h => by simpa [isDot] using hw _ h

theorem rejects_locationLine : locationLine.Rejects '\r' ∧ locationLine.Rejects '\n' := by
  refine ⟨⟨rejects_lit ?_, rejects_plus rfl, rejects_lit ?_, rejects_plus rfl⟩,
    ⟨rejects_lit ?_, rejects_plus rfl, rejects_lit ?_, rejects_plus rfl⟩⟩ <;> decide

theorem rejects_serverLine : serverLine.Rejects '\r' := by
  refine ⟨rejects_lit ?_, rejects_plus rfl, rejects_lit ?_, rejects_plus rfl⟩ <;> decide

theorem rejects_stLine : stLine.Rejects '\r' := ⟨rejects_lit (by decide), rejects_plus rfl⟩

theorem rejects_usnLine : usnLine.Rejects '\r' := by
  refine ⟨rejects_lit ?_, rejects_plus rfl, rejects_lit ?_, rejects_times rfl 12, rejects_lit ?_⟩ <;>
    decide

theorem rejects_bridgeId19 : bridgeId19.Rejects '\r' := ⟨rfl, rejects_plus rfl⟩

theorem whole_serverLine {l : List Char} (hl : ¬ IsServer l) : serverLine.whole l = [] := by
  by_contra hne
  obtain ⟨c, hc⟩ := List.exists_mem_of_ne_nil _ hne
  obtain ⟨k, hk, k', hk', heq⟩ := mem_ways_seq.mp (mem_whole.mp hc)
  obtain ⟨m, hm, m', hm', rfl⟩ := mem_ways_seq.mp hk'
  obtain ⟨n, hn, n', hn', rfl⟩ := mem_ways_seq.mp hm'
  obtain ⟨o, ho, rfl⟩ := mem_ways_group.mp hn'
  obtain ⟨-, hserver⟩ := mem_ways_lit.mp hk
  obtain ⟨-, x, hx, hproducts, hxclean⟩ := mem_ways_plus.mp hm
  obtain ⟨-, hipbridge⟩ := mem_ways_lit.mp hn
  obtain ⟨-, y, hy, hversion, hyclean⟩ := mem_ways_plus.mp ho
  have hend : o.2 = [] := (congrArg Prod.snd heq).symm
  refine hl ⟨⟨x, hx, hxclean⟩, ⟨y, hy, hyclean⟩, ?_⟩
  rw [hserver, hproducts, hipbridge, hversion, hend, List.append_nil]
  rfl

/-! ### Passing over lines -/

theorem append_cons_inj {a : Char} {x l u v : List Char} (hx : a ∉ x) (hl : a ∉ l)
    (h : x ++ a :: u = l ++ a :: v) : x = l ∧ u = v := by
  induction x generalizing l with
  | nil =>
    cases l with
    | nil => exact ⟨rfl, by simpa using h⟩
    | cons b l =>
      have hab : a = b := by simpa using congrArg List.head? h
      simp [hab] at hl
  | cons b x ih =>
    cases l with
    | nil =>
      have hba : b = a := by simpa using congrArg List.head? h
      simp [hba] at hx
    | cons c l =>
      obtain ⟨hbc, h⟩ : b = c ∧ x ++ a :: u = l ++ a :: v := by simpa using h
      obtain ⟨hxl, huv⟩ := ih (fun hmem => hx (by simp [hmem])) (fun hmem => hl (by simp [hmem])) h
      exact ⟨by rw [hbc, hxl], huv⟩

/-- A window on a line and what follows: it ends within the line, or contains the line. -/
theorem window_line {l : List Char} (hl : Clean l) {t w f : List Char} (h : l ++ (crlf ++ t) = w ++ f) :
    ('\n' ∉ w ∧ t.length < f.length) ∨ ∃ w', w = l ++ (crlf ++ w') ∧ t = w' ++ f := by
  have hlength := congrArg List.length h
  have hcrlf : crlf.length = 2 := rfl
  simp only [List.length_append, hcrlf] at hlength
  rcases Nat.lt_or_ge w.length (l.length + 2) with hn | hn
  · left
    have hfront : l ++ ['\r'] <+: w ++ f := by
      rw [← h, List.prefix_append_right_inj]
      exact ⟨'\n' :: t, rfl⟩
    have hwindow : w <+: l ++ ['\r'] :=
      List.prefix_of_prefix_length_le (List.prefix_append w f) hfront (by simp; omega)
    refine ⟨fun hmem => ?_, by omega⟩
    rcases List.mem_append.mp (hwindow.subset hmem) with hmem | hmem
    · exact hl.lf hmem
    · simp at hmem
  · right
    rw [← List.append_assoc] at h
    have hfront : l ++ crlf <+: w :=
      List.prefix_of_prefix_length_le ⟨t, h⟩ (List.prefix_append w f) (by simp [hcrlf]; omega)
    obtain ⟨w', rfl⟩ := hfront
    simp only [List.append_assoc, List.append_cancel_left_eq] at h
    exact ⟨w', List.append_assoc _ _ _, h⟩

theorem ways_line_eq_nil {q r : Regex Char} (hq : q.Rejects '\r') {l : List Char} (hl : Clean l)
    {t : List Char} (h : q.whole l = [] ∨ r.ways t = []) : (line q r).ways (l ++ (crlf ++ t)) = [] := by
  have hways := ways_line (w := ['\n']) (r := r) hq hl.cr t
  rw [List.append_assoc] at hways
  refine hways.trans ?_
  rcases h with h | h <;> simp [h]

/-- Without the end of a line there is no match of a line. -/
theorem ways_line_of_lf {q r : Regex Char} (hq : q.Rejects '\r') {s : List Char} (hs : '\n' ∉ s) :
    (line q r).ways s = [] := by
  by_contra hne
  obtain ⟨x, t, rfl, -⟩ := exists_line_of_ways hq hne
  simp at hs

theorem ways_line_window {q r : Regex Char} (hq : q.Rejects '\r') {l : List Char} (hl : Clean l)
    {t w f : List Char} (hw : l ++ (crlf ++ t) = w ++ f)
    (h : q.whole l = [] ∨ ∀ w', t = w' ++ f → r.ways w' = []) : (line q r).ways w = [] := by
  rcases window_line hl hw with ⟨hlf, -⟩ | ⟨w', rfl, ht⟩
  · exact ways_line_of_lf hq hlf
  · exact ways_line_eq_nil hq hl (h.imp_right fun h => h w' ht)

theorem search_of_lf {q r : Regex Char} (hq : q.Rejects '\r') {s : List Char} (hs : '\n' ∉ s) :
    (line q r).search s = none :=
  search_eq_none fun _ hy => ways_line_of_lf hq fun hmem => hs (hy.subset hmem)

theorem whole_locationLine_nil : locationLine.whole [] = [] := by decide

/-- A line that is not followed by what the expression asks for is passed over. -/
theorem search_line {r : Regex Char} {l : List Char} (hl : Clean l) {t : List Char}
    (ht : r.ways t = []) :
    (line locationLine r).search (l ++ (crlf ++ t)) = (line locationLine r).search t := by
  have hq := rejects_locationLine
  rw [search_append, search_append (x := crlf)]
  · intro y hy hne
    obtain ⟨z, hz⟩ := hy
    have hcases : y = crlf ∨ y = ['\n'] := by
      match z, y with
      | [], y => exact Or.inl hz
      | [_], y => simp [crlf] at hz; simp [hz]
      | _ :: _ :: z, [] => exact absurd rfl hne
      | _ :: _ :: z, _ :: _ => simp [crlf] at hz
    rcases hcases with rfl | rfl
    · exact ways_line_eq_nil (l := []) hq.1 (by simp [Clean]) (Or.inr ht)
    · by_contra hne
      obtain ⟨x, u, hx, -, hwhole, -⟩ := exists_line_of_ways hq.1 hne
      cases x with
      | nil => simp at hx
      | cons c x =>
        obtain ⟨d, hd⟩ := List.exists_mem_of_ne_nil _ hwhole
        obtain ⟨v, hv, hlf⟩ := exists_front_of_mem_ways hq.2 (mem_whole.mp hd)
        have hc : '\n' = c := by simpa using congrArg List.head? hx
        rw [List.append_nil] at hv
        rw [← hv, hc] at hlf
        simp at hlf
  · intro y hy _
    have hclean : Clean y := fun c hc => hl c (hy.subset hc)
    exact ways_line_eq_nil hq.1 hclean (Or.inr ht)

/-- The same for a window. -/
theorem search_window {r : Regex Char} {l : List Char} (hl : Clean l) {t w f : List Char}
    (hw : l ++ (crlf ++ t) = w ++ f) (h : ∀ w', t = w' ++ f → r.ways w' = []) :
    ((line locationLine r).search w = none ∧ t.length < f.length) ∨
      ∃ w', t = w' ++ f ∧ w'.length < w.length ∧
        (line locationLine r).search w = (line locationLine r).search w' := by
  rcases window_line hl hw with ⟨hlf, hlt⟩ | ⟨w', rfl, ht⟩
  · exact Or.inl ⟨search_of_lf rejects_locationLine.1 hlf, hlt⟩
  · exact Or.inr ⟨w', ht, by simp [crlf]; omega, search_line hl (h w' ht)⟩

/-! ### The lines of the formats -/

theorem clean_of_alnum {w : List Char} (hw : ∀ c ∈ w, isAlnum c = true) : Clean w := by
  intro c hc
  have halnum := hw c hc
  rw [isDot, Bool.and_eq_true, decide_eq_true_eq, decide_eq_true_eq]
  constructor
  · rintro rfl
    exact absurd halnum (by decide)
  · rintro rfl
    exact absurd halnum (by decide)

theorem clean_of_blank {w : List Char} (hw : ∀ c ∈ w, c = ' ' ∨ c = '\t') : Clean w := by
  intro c hc
  rcases hw c hc with rfl | rfl <;> rfl

theorem clean_literal {s : String} (hs : s.toList.all isDot = true) : Clean s.toList :=
  List.all_eq_true.mp hs

theorem Announcement.clean_location (a : Announcement) : Clean a.location :=
  clean_append.mpr ⟨clean_literal (by decide), clean_append.mpr ⟨a.host.clean,
    clean_append.mpr ⟨clean_literal (by decide), a.path.clean⟩⟩⟩

theorem Announcement.clean_server (a : Announcement) : Clean a.server :=
  clean_append.mpr ⟨clean_literal (by decide), clean_append.mpr ⟨a.products.clean,
    clean_append.mpr ⟨clean_literal (by decide), a.version.clean⟩⟩⟩

theorem OldFormat.clean_stText (s : OldFormat) : Clean s.stText :=
  clean_append.mpr ⟨clean_literal (by decide), s.st.clean⟩

theorem OldFormat.clean_usn (s : OldFormat) : Clean s.usn :=
  clean_append.mpr ⟨clean_literal (by decide), clean_append.mpr ⟨s.uuid.clean,
    clean_append.mpr ⟨clean_literal (by decide), clean_append.mpr
      ⟨clean_of_alnum s.mac_alnum, clean_literal (by decide)⟩⟩⟩⟩

theorem BridgeIdLine.clean (i : BridgeIdLine) : Clean (i.space ++ i.id) :=
  clean_append.mpr ⟨clean_of_blank i.space_blank, clean_of_alnum i.id_alnum⟩

theorem BridgeIdLine.clean_text (i : BridgeIdLine) : Clean i.text :=
  clean_append.mpr ⟨clean_idField, i.clean⟩

theorem NewFormat.clean_idLine (s : NewFormat) : Clean s.idLine := by
  refine clean_append.mpr ⟨clean_idField, clean_append.mpr
    ⟨clean_of_blank s.space_blank, List.forall_mem_cons.mpr ⟨?_, s.more.clean⟩⟩⟩
  exact clean_of_alnum (w := [s.first]) (by simpa using s.first_alnum) s.first (by simp)

/-- A line that begins with another character is not that of a bridge. -/
theorem not_isServer {l : List Char} (hl : l.head? ≠ some 'S') : ¬ IsServer l := by
  rintro ⟨products, version, rfl⟩
  exact hl rfl

theorem not_isServer_of_colon {l : List Char} (hl : ':' ∉ l) : ¬ IsServer l := by
  rintro ⟨products, version, rfl⟩
  have hcolon : ':' ∈ "SERVER:".toList := by decide
  exact hl (List.mem_append_left _ hcolon)

theorem BridgeIdLine.colon (i : BridgeIdLine) : ':' ∉ i.space ++ i.id := by
  intro hmem
  rcases List.mem_append.mp hmem with hmem | hmem
  · exact absurd (i.space_blank _ hmem) (by decide)
  · exact absurd (i.id_alnum _ hmem) (by decide)

theorem head_append_literal {s : String} {c : Char} (hs : s.toList.head? = some c) (w : List Char) :
    (s.toList ++ w).head? = some c := by
  rw [List.head?_append, hs]
  rfl

theorem head_idField (w : List Char) : (idField ++ w).head? = some 'h' :=
  head_append_literal (by decide) w

theorem Announcement.head_location (a : Announcement) : a.location.head? = some 'L' :=
  head_append_literal (by decide) _

theorem OldFormat.base_pos (s : OldFormat) : 0 < s.base.length := by simp [OldFormat.base, crlf]

theorem NewFormat.text_pos (s : NewFormat) : 0 < s.text.length := by simp [NewFormat.text, crlf]

theorem OldFormat.exists_tail (s : OldFormat) : ∃ u, s.tail = '\r' :: u := by
  cases hid : s.bridgeId with
  | none => exact ⟨['\n'], by simp [OldFormat.tail, hid, crlf]⟩
  | some i => exact ⟨'\n' :: (i.text ++ crlf), by simp [OldFormat.tail, hid, crlf]⟩

/-! ### What the lines capture -/

theorem Announcement.exists_ip (a : Announcement) :
    ∃ ip, (locationLine.whole a.location).head? = some [(1, ip)] := by
  have hne : locationLine.whole a.location ≠ [] := by
    refine List.ne_nil_of_mem (mem_whole.mpr (mem_ways_seq.mpr ?_) : [(1, a.host.text)] ∈ _)
    refine ⟨([], a.host.text ++ (":".toList ++ a.path.text)), mem_ways_lit.mpr ⟨rfl, rfl⟩,
      ([(1, a.host.text)], []), mem_ways_seq.mpr ?_, rfl⟩
    refine ⟨([(1, a.host.text)], ":".toList ++ a.path.text), mem_ways_group.mpr ?_,
      ([], []), mem_ways_seq.mpr ?_, rfl⟩
    · refine ⟨([], ":".toList ++ a.path.text), mem_ways_plus.mpr ⟨rfl, _, a.host.ne_nil, rfl, a.host.clean⟩, ?_⟩
      simp
    · exact ⟨([], a.path.text), mem_ways_lit.mpr ⟨rfl, rfl⟩, ([], []),
        mem_ways_plus.mpr ⟨rfl, _, a.path.ne_nil, by simp, a.path.clean⟩, rfl⟩
  obtain ⟨c, cs, hcs⟩ := List.exists_cons_of_ne_nil hne
  have hc : c ∈ locationLine.whole a.location := by simp [hcs]
  obtain ⟨k, hk, k', hk', heq⟩ := mem_ways_seq.mp (mem_whole.mp hc)
  obtain ⟨m, hm, m', hm', rfl⟩ := mem_ways_seq.mp hk'
  obtain ⟨n, hn, n', hn', rfl⟩ := mem_ways_seq.mp hm'
  obtain ⟨o, ho, rfl⟩ := mem_ways_group.mp hm
  have hcaptures : c = k.1 ++ (((1, k.2.take (k.2.length - o.2.length)) :: o.1) ++ (n.1 ++ n'.1)) :=
    congrArg Prod.fst heq
  rw [(mem_ways_lit.mp hk).1, (mem_ways_plus.mp ho).1, (mem_ways_lit.mp hn).1,
    (mem_ways_plus.mp hn').1] at hcaptures
  exact ⟨_, by rw [hcs, hcaptures]; rfl⟩

theorem Announcement.exists_apiVersion (a : Announcement) :
    ∃ apiVersion, (serverLine.whole a.server).head? = some [(2, apiVersion)] := by
  have hne : serverLine.whole a.server ≠ [] := by
    refine List.ne_nil_of_mem (mem_whole.mpr (mem_ways_seq.mpr ?_) : [(2, a.version.text)] ∈ _)
    refine ⟨([], a.products.text ++ ("IpBridge/".toList ++ a.version.text)), mem_ways_lit.mpr ⟨rfl, rfl⟩,
      ([(2, a.version.text)], []), mem_ways_seq.mpr ?_, rfl⟩
    refine ⟨([], "IpBridge/".toList ++ a.version.text),
      mem_ways_plus.mpr ⟨rfl, _, a.products.ne_nil, rfl, a.products.clean⟩,
      ([(2, a.version.text)], []), mem_ways_seq.mpr ?_, rfl⟩
    refine ⟨([], a.version.text), mem_ways_lit.mpr ⟨rfl, rfl⟩, ([(2, a.version.text)], []),
      mem_ways_group.mpr ⟨([], []), mem_ways_plus.mpr ⟨rfl, _, a.version.ne_nil, by simp,
        a.version.clean⟩, by simp⟩, rfl⟩
  obtain ⟨c, cs, hcs⟩ := List.exists_cons_of_ne_nil hne
  have hc : c ∈ serverLine.whole a.server := by simp [hcs]
  obtain ⟨k, hk, k', hk', heq⟩ := mem_ways_seq.mp (mem_whole.mp hc)
  obtain ⟨m, hm, m', hm', rfl⟩ := mem_ways_seq.mp hk'
  obtain ⟨n, hn, n', hn', rfl⟩ := mem_ways_seq.mp hm'
  obtain ⟨o, ho, rfl⟩ := mem_ways_group.mp hn'
  have hcaptures : c = k.1 ++ (m.1 ++ (n.1 ++ ((2, n.2.take (n.2.length - o.2.length)) :: o.1))) :=
    congrArg Prod.fst heq
  rw [(mem_ways_lit.mp hk).1, (mem_ways_plus.mp hm).1, (mem_ways_lit.mp hn).1,
    (mem_ways_plus.mp ho).1] at hcaptures
  exact ⟨_, by rw [hcs, hcaptures]; rfl⟩

/-- The address in the first line of a response. -/
def Announcement.ip (a : Announcement) : List Char :=
  groupText ((locationLine.whole a.location).headD []) 1

/-- The version in its second line. -/
def Announcement.apiVersion (a : Announcement) : List Char :=
  groupText ((serverLine.whole a.server).headD []) 2

theorem Announcement.head_whole_location (a : Announcement) :
    (locationLine.whole a.location).head? = some [(1, a.ip)] := by
  obtain ⟨ip, hip⟩ := a.exists_ip
  have heq : a.ip = ip := by
    rw [Announcement.ip, List.headD_eq_head?_getD, hip]
    rfl
  rw [hip, heq]

theorem Announcement.head_whole_server (a : Announcement) :
    (serverLine.whole a.server).head? = some [(2, a.apiVersion)] := by
  obtain ⟨apiVersion, hversion⟩ := a.exists_apiVersion
  have heq : a.apiVersion = apiVersion := by
    rw [Announcement.apiVersion, List.headD_eq_head?_getD, hversion]
    rfl
  rw [hversion, heq]

/-- The end of the line that names the root device is its only place for `::upnp:rootdevice`. -/
theorem rootdevice_inj {u v t : List Char} (hu : ':' ∉ u)
    (h : u ++ "::upnp:rootdevice".toList = v ++ ("::upnp:rootdevice".toList ++ t)) : t = [] ∧ u = v := by
  have hcount := congrArg (List.count ':') h
  have hthree : List.count ':' "::upnp:rootdevice".toList = 3 := by decide
  rw [List.count_append, List.count_append, List.count_append, hthree, List.count_eq_zero.mpr hu] at hcount
  have hv : ':' ∉ v := List.count_eq_zero.mp (by omega)
  have hcolon : "::upnp:rootdevice".toList = ':' :: ":upnp:rootdevice".toList := by decide
  rw [hcolon, List.cons_append] at h
  obtain ⟨huv, hrest⟩ := append_cons_inj hu hv h
  exact ⟨List.append_right_eq_self.mp hrest.symm, huv⟩

/-- The last line of the old format is recognised only as a whole. -/
theorem OldFormat.ways_usnLine (s : OldFormat) {w z : List Char} (h : s.usn = w ++ z)
    {m : Captures Char × List Char} (hm : m ∈ usnLine.ways w) : z = [] ∧ m = ([(3, s.mac)], []) := by
  obtain ⟨k, hk, k', hk', rfl⟩ := mem_ways_seq.mp hm
  obtain ⟨l, hl, l', hl', rfl⟩ := mem_ways_seq.mp hk'
  obtain ⟨n, hn, n', hn', rfl⟩ := mem_ways_seq.mp hl'
  obtain ⟨o, ho, o', ho', rfl⟩ := mem_ways_seq.mp hn'
  obtain ⟨p, hp, rfl⟩ := mem_ways_group.mp ho
  obtain ⟨hk, husn⟩ := mem_ways_lit.mp hk
  obtain ⟨hl, x, -, huuid, -⟩ := mem_ways_plus.mp hl
  obtain ⟨hn, hdash⟩ := mem_ways_lit.mp hn
  obtain ⟨hp, y, hlength, hmac, -⟩ := mem_ways_times.mp hp
  obtain ⟨ho', hroot : p.2 = "::upnp:rootdevice".toList ++ o'.2⟩ := mem_ways_lit.mp ho'
  have hcolon : ':' ∉ s.uuid.text ++ ("-".toList ++ s.mac) := by
    have hmac : ':' ∉ s.mac := fun hmem => absurd (s.mac_alnum _ hmem) (by decide)
    simp [s.uuid_colon, hmac]
  have hline : s.uuid.text ++ ("-".toList ++ (s.mac ++ "::upnp:rootdevice".toList)) =
      x ++ ("-".toList ++ (y ++ ("::upnp:rootdevice".toList ++ (o'.2 ++ z)))) := by
    have hall : "USN: uuid:".toList ++ (s.uuid.text ++ ("-".toList ++ (s.mac ++ "::upnp:rootdevice".toList))) =
        "USN: uuid:".toList ++ (x ++ ("-".toList ++ (y ++ ("::upnp:rootdevice".toList ++ (o'.2 ++ z))))) := by
      refine h.trans ?_
      simp only [husn, huuid, hdash, hmac, hroot, List.append_assoc]
    exact List.append_cancel_left hall
  obtain ⟨hend, hids⟩ := rootdevice_inj (v := x ++ ("-".toList ++ y)) (t := o'.2 ++ z) hcolon
    (by simpa only [List.append_assoc] using hline)
  obtain ⟨hrest, hz⟩ := List.append_eq_nil_iff.mp hend
  rw [← List.append_assoc, ← List.append_assoc] at hids
  obtain ⟨-, rfl⟩ := List.append_inj' hids (s.mac_length.trans hlength.symm)
  refine ⟨hz, Prod.ext ?_ hrest⟩
  simp [hk, hl, hn, hp, ho', hmac]

theorem OldFormat.mem_ways_usnLine (s : OldFormat) : ([(3, s.mac)], []) ∈ usnLine.ways s.usn := by
  refine mem_ways_seq.mpr ⟨([], s.uuid.text ++ ("-".toList ++ (s.mac ++ "::upnp:rootdevice".toList))),
    mem_ways_lit.mpr ⟨rfl, rfl⟩, ([(3, s.mac)], []), mem_ways_seq.mpr ?_, rfl⟩
  refine ⟨([], "-".toList ++ (s.mac ++ "::upnp:rootdevice".toList)),
    mem_ways_plus.mpr ⟨rfl, _, s.uuid.ne_nil, rfl, s.uuid.clean⟩, ([(3, s.mac)], []), mem_ways_seq.mpr ?_, rfl⟩
  refine ⟨([], s.mac ++ "::upnp:rootdevice".toList), mem_ways_lit.mpr ⟨rfl, rfl⟩,
    ([(3, s.mac)], []), mem_ways_seq.mpr ?_, rfl⟩
  refine ⟨([(3, s.mac)], "::upnp:rootdevice".toList), mem_ways_group.mpr ?_, ([], []),
    mem_ways_lit.mpr ⟨rfl, by simp⟩, rfl⟩
  exact ⟨([], "::upnp:rootdevice".toList),
    mem_ways_times.mpr ⟨rfl, s.mac, s.mac_length, rfl, s.mac_alnum⟩, by simp⟩

theorem OldFormat.head_ways_usnLine (s : OldFormat) {t : List Char} (ht : t = [] ∨ ∃ u, t = '\r' :: u) :
    (usnLine.ways (s.usn ++ t)).head? = some ([(3, s.mac)], t) := by
  have hhead : (usnLine.ways s.usn).head? = some ([(3, s.mac)], []) := by
    obtain ⟨m, ms, hms⟩ := List.exists_cons_of_ne_nil (List.ne_nil_of_mem s.mem_ways_usnLine)
    have hm : m ∈ usnLine.ways s.usn := by simp [hms]
    rw [hms, List.head?_cons, (s.ways_usnLine (List.append_nil _).symm hm).2]
  rcases ht with rfl | ⟨u, rfl⟩
  · rw [List.append_nil]
    exact hhead
  · rw [ways_append rejects_usnLine, List.head?_map, hhead]
    rfl

theorem OldFormat.head_whole_stLine (s : OldFormat) : (stLine.whole s.stText).head? = some [] := by
  have hmem : ([], []) ∈ stLine.ways s.stText :=
    mem_ways_seq.mpr ⟨([], s.st.text), mem_ways_lit.mpr ⟨rfl, rfl⟩, ([], []),
      mem_ways_plus.mpr ⟨rfl, s.st.text, s.st.ne_nil, by simp, s.st.clean⟩, rfl⟩
  obtain ⟨c, cs, hcs⟩ := List.exists_cons_of_ne_nil (List.ne_nil_of_mem (mem_whole.mpr hmem))
  have hc : c ∈ stLine.whole s.stText := by simp [hcs]
  obtain ⟨k, hk, k', hk', heq⟩ := mem_ways_seq.mp (mem_whole.mp hc)
  have hcaptures : c = k.1 ++ k'.1 := congrArg Prod.fst heq
  rw [(mem_ways_lit.mp hk).1, (mem_ways_plus.mp hk').1] at hcaptures
  rw [hcs, hcaptures]
  rfl

theorem head_line {q r : Regex Char} (hq : q.Rejects '\r') {l : List Char} (hl : Clean l) {t : List Char}
    {c : Captures Char} {m : Captures Char × List Char} (hc : (q.whole l).head? = some c)
    (hm : (r.ways t).head? = some m) :
    ((line q r).ways (l ++ (crlf ++ t))).head? = some (c ++ m.1, m.2) := by
  have hline := head_ways_line (w := ['\n']) hq hl.cr hc hm
  rw [List.append_assoc] at hline
  exact hline

/-- What the first expression finds in a response of the old format. -/
def OldFormat.captures (s : OldFormat) (c : Captures Char) : Captures Char :=
  (1, s.ip) :: (2, s.apiVersion) :: (3, s.mac) :: c

theorem OldFormat.head_ways (s : OldFormat) {t : List Char} (ht : t = [] ∨ ∃ u, t = '\r' :: u)
    {m : Captures Char × List Char} (hm : (Upnp.bridgeId.ways t).head? = some m) :
    (upnpResponseRegex.ways (s.base ++ t)).head? = some (s.captures m.1, m.2) := by
  have husn := head_ways_seq (s.head_ways_usnLine ht) hm
  have hst := head_line rejects_stLine s.clean_stText s.head_whole_stLine husn
  have hserver := head_line rejects_serverLine s.clean_server s.head_whole_server hst
  have hlocation := head_line rejects_locationLine.1 s.clean_location s.head_whole_location hserver
  have hbase : s.base ++ t =
      s.location ++ (crlf ++ (s.server ++ (crlf ++ (s.stText ++ (crlf ++ (s.usn ++ t)))))) := by
    simp only [OldFormat.base, List.append_assoc]
  rw [hbase]
  exact hlocation

/-! ### The id line -/

/-- What the group of the id line begins with. -/
def idStart : List Char := crlf ++ idField

theorem head_bridgeId_of_not_prefix {t : List Char} (ht : ¬ idStart <+: t) :
    (bridgeId.ways t).head? = some ([], t) := by
  refine head_ways_opt_of_nil ?_
  by_contra hne
  obtain ⟨m, hm⟩ := List.exists_mem_of_ne_nil _ hne
  obtain ⟨k, hk, -⟩ := mem_ways_group.mp hm
  obtain ⟨l, hl, -⟩ := mem_ways_seq.mp hk
  exact ht ⟨l.2, (mem_ways_lit.mp hl).2.symm⟩

theorem not_isSpace {c : Char} (hc : isAlnum c = true) : isSpace c = false := by
  have hle : '0' ≤ c := by
    simp only [isAlnum, Bool.or_eq_true, Bool.and_eq_true, decide_eq_true_eq] at hc
    rcases hc with (hc | hc) | hc
    · exact hc.1
    · exact Char.le_trans (by decide : '0' ≤ 'a') hc.1
    · exact Char.le_trans (by decide : '0' ≤ 'A') hc.1
  have hlt : ¬ c ≤ '\r' := fun h => absurd (Char.le_trans hle h) (by decide)
  rw [isSpace, Bool.or_eq_false_iff, decide_eq_false_iff_not]
  constructor
  · rintro rfl
    exact absurd hle (by decide)
  · simp [hlt]

/-- The id is read as far as it has been received. -/
theorem head_bridgeId {a b v : List Char} (ha : ∀ c ∈ a, isSpace c = true) (hb : ∀ c ∈ b, isAlnum c = true)
    (hb' : b = [] → v = []) (hv : v = [] ∨ ∃ u, v = '\r' :: u) :
    ∃ w, (bridgeId.ways (idStart ++ (a ++ (b ++ v)))).head? = some ([(4, w), (5, b)], v) := by
  have hspaces : (a ++ (b ++ v)).dropWhile isSpace = b ++ v := by
    rw [List.dropWhile_append_of_pos ha]
    cases b with
    | nil =>
      rw [hb' rfl]
      rfl
    | cons c b =>
      have hc : isAlnum c = true := hb c (by simp)
      exact List.dropWhile_cons_of_neg (by simp [not_isSpace hc])
  have hid : (b ++ v).dropWhile isAlnum = v := by
    rw [List.dropWhile_append_of_pos hb]
    rcases hv with rfl | ⟨u, rfl⟩ <;> rfl
  have hmany := head_ways_many isAlnum (b ++ v)
  rw [hid] at hmany
  have hgroup := head_ways_group (n := 5) hmany
  have htake : (b ++ v).take ((b ++ v).length - v.length) = b := by simp
  simp only [htake] at hgroup
  have hspace := head_ways_many isSpace (a ++ (b ++ v))
  rw [hspaces] at hspace
  have hline : ((lit idStart).ways (idStart ++ (a ++ (b ++ v)))).head? = some ([], a ++ (b ++ v)) := by
    rw [ways_lit_append]
    rfl
  exact ⟨_, head_ways_opt (head_ways_group (head_ways_seq hline (head_ways_seq hspace hgroup)))⟩

/-- The id as it is read when `n` characters have been received after the line that names the root device. -/
def OldFormat.idAt (s : OldFormat) (n : ℕ) : List Char :=
  match s.bridgeId with
  | none => getUniqueBridgeIdFromMac s.mac
  | some i =>
    if n < idStart.length then getUniqueBridgeIdFromMac s.mac
    else toUpperCase (i.id.take (n - (idStart.length + i.space.length)))

def OldFormat.resultAt (s : OldFormat) (n : ℕ) : BridgeDiscoveryResult :=
  result (s.idAt n) s.ip s.apiVersion

def NewFormat.result (s : NewFormat) : BridgeDiscoveryResult :=
  Upnp.result (s.first :: s.more.text) s.ip s.apiVersion

/-- What a window takes of two texts one after the other, and what it leaves. -/
theorem window_append {u x t f : List Char} (h : u ++ x = t ++ f) :
    t = u.take t.length ++ x.take (t.length - u.length) ∧
      u.drop t.length ++ x = x.take (t.length - u.length) ++ f := by
  have htake := congrArg (List.take t.length) h
  have hdrop := congrArg (List.drop t.length) h
  rw [List.take_append, List.take_left] at htake
  rw [List.drop_append, List.drop_left] at hdrop
  refine ⟨htake.symm, ?_⟩
  rcases Nat.le_total t.length u.length with hle | hle
  · rw [Nat.sub_eq_zero_of_le hle] at hdrop ⊢
    simpa using hdrop
  · rw [List.drop_eq_nil_of_le hle, List.nil_append] at hdrop ⊢
    rw [← hdrop, List.take_append_drop]

theorem resultOf_nil (ip apiVersion mac : List Char) :
    resultOf [(1, ip), (2, apiVersion), (3, mac)] = result (getUniqueBridgeIdFromMac mac) ip apiVersion := rfl

theorem resultOf_id (ip apiVersion mac w id : List Char) :
    resultOf [(1, ip), (2, apiVersion), (3, mac), (4, w), (5, id)] = result (toUpperCase id) ip apiVersion := rfl

/-! ### Incomplete responses -/

theorem ways_text_eq_nil {s : String} {c : Char} (hs : s.toList.head? = some c) {l : List Char}
    (hl : l.head? ≠ some c) (r : Regex Char) : (seq (text s) r).ways l = [] := by
  by_contra hne
  obtain ⟨m, hm⟩ := List.exists_mem_of_ne_nil _ hne
  obtain ⟨k, hk, -⟩ := mem_ways_seq.mp hm
  rw [(mem_ways_lit.mp hk).2] at hl
  exact hl (head_append_literal hs _)

theorem whole_eq_nil {q : Regex Char} {l : List Char} (h : q.ways l = []) : q.whole l = [] := by
  rw [whole, h]
  rfl

/-- A window that ends within its first line. -/
theorem lf_window {l : List Char} (hl : Clean l) {rest w f : List Char} (h : l ++ rest = w ++ f)
    (hf : rest.length < f.length) : '\n' ∉ w := by
  have hlength := congrArg List.length h
  simp only [List.length_append] at hlength
  have hfront : w <+: l :=
    List.prefix_of_prefix_length_le ⟨f, h.symm⟩ (List.prefix_append l rest) (by omega)
  exact fun hmem => hl.lf (hfront.subset hmem)

theorem second_append_literal {s : String} {c : Char} (hs : s.toList[1]? = some c) (w : List Char) :
    (s.toList ++ w)[1]? = some c := by
  have hlt : 1 < s.toList.length := by
    by_contra hle
    rw [List.getElem?_eq_none (by omega)] at hs
    exact absurd hs (by simp)
  rw [List.getElem?_append_left hlt, hs]

theorem OldFormat.not_isServer_stText (s : OldFormat) : ¬ IsServer s.stText := by
  rintro ⟨products, version, h⟩
  have hst : s.stText[1]? = some 'T' := second_append_literal (by decide) _
  have hserver : (serverText products version)[1]? = some 'E' := second_append_literal (by decide) _
  rw [h, hserver] at hst
  exact absurd hst (by decide)

theorem OldFormat.head_usn (s : OldFormat) : s.usn.head? = some 'U' := head_append_literal (by decide) _

theorem OldFormat.head_stText (s : OldFormat) : s.stText.head? = some 'S' :=
  head_append_literal (by decide) _

/-- A response of the old format is not found before its last line is there. -/
theorem OldFormat.search_window (s : OldFormat) {r : Regex Char} {rest w f : List Char}
    (h : s.base ++ rest = w ++ f) (hf : rest.length < f.length)
    (hr : ∀ w', s.stText ++ (crlf ++ (s.usn ++ rest)) = w' ++ f → r.ways w' = []) :
    (line locationLine (line serverLine r)).search w = none := by
  rw [OldFormat.base] at h
  simp only [List.append_assoc] at h
  have husn : ∀ w', s.usn ++ rest = w' ++ f → '\n' ∉ w' := fun w' h => lf_window s.clean_usn h hf
  have hst : ∀ w', s.stText ++ (crlf ++ (s.usn ++ rest)) = w' ++ f → (line serverLine r).ways w' = [] :=
    fun w' h => ways_line_window rejects_serverLine s.clean_stText h
      (Or.inl (whole_serverLine s.not_isServer_stText))
  have hserver : ∀ w', s.server ++ (crlf ++ (s.stText ++ (crlf ++ (s.usn ++ rest)))) = w' ++ f →
      (line serverLine r).ways w' = [] :=
    fun w' h => ways_line_window rejects_serverLine s.clean_server h (Or.inr hr)
  rcases Upnp.search_window s.clean_location h hserver with ⟨hnone, -⟩ | ⟨w₁, h₁, -, heq₁⟩
  · exact hnone
  rcases Upnp.search_window (r := line serverLine r) s.clean_server h₁ hst with ⟨hnone, -⟩ | ⟨w₂, h₂, -, heq₂⟩
  · exact heq₁.trans hnone
  have hlast : ∀ w', s.usn ++ rest = w' ++ f → (line serverLine r).ways w' = [] :=
    fun w' h => ways_line_of_lf rejects_serverLine (husn w' h)
  rcases Upnp.search_window (r := line serverLine r) s.clean_stText h₂ hlast with ⟨hnone, -⟩ | ⟨w₃, h₃, -, heq₃⟩
  · exact heq₁.trans (heq₂.trans hnone)
  · have hnone := search_of_lf (r := line serverLine r) rejects_locationLine.1 (husn w₃ h₃)
    exact heq₁.trans (heq₂.trans (heq₃.trans hnone))

/-- A response of the format of firmware 1.9 that is not found. -/
theorem NewFormat.search_window (s : NewFormat) {r : Regex Char} {rest w f : List Char}
    (h : s.text ++ rest = w ++ f) (hr : ∀ w', s.idLine ++ (crlf ++ rest) = w' ++ f → r.ways w' = [])
    (hrest : ∀ w', rest = w' ++ f → (line serverLine r).ways w' = []) :
    ((line locationLine (line serverLine r)).search w = none ∧ rest.length < f.length) ∨
      ∃ w', rest = w' ++ f ∧ w'.length < w.length ∧
        (line locationLine (line serverLine r)).search w = (line locationLine (line serverLine r)).search w' := by
  rw [NewFormat.text] at h
  simp only [List.append_assoc] at h
  have hid : ∀ w', s.idLine ++ (crlf ++ rest) = w' ++ f → (line serverLine r).ways w' = [] :=
    fun w' h => ways_line_window rejects_serverLine s.clean_idLine h
      (Or.inl (whole_serverLine (not_isServer (by rw [NewFormat.idLine, head_idField]; decide))))
  have hserver : ∀ w', s.server ++ (crlf ++ (s.idLine ++ (crlf ++ rest))) = w' ++ f →
      (line serverLine r).ways w' = [] :=
    fun w' h => ways_line_window rejects_serverLine s.clean_server h (Or.inr hr)
  have hlength : rest.length ≤ (crlf ++ (s.idLine ++ (crlf ++ rest))).length := by
    simp only [List.length_append]
    omega
  rcases Upnp.search_window s.clean_location h hserver with ⟨hnone, hlt⟩ | ⟨w₁, h₁, hlt₁, heq₁⟩
  · refine Or.inl ⟨hnone, ?_⟩
    simp only [List.length_append] at hlt
    omega
  rcases Upnp.search_window (r := line serverLine r) s.clean_server h₁ hid with ⟨hnone, hlt⟩ | ⟨w₂, h₂, hlt₂, heq₂⟩
  · refine Or.inl ⟨heq₁.trans hnone, ?_⟩
    simp only [List.length_append] at hlt
    omega
  rcases Upnp.search_window (r := line serverLine r) s.clean_idLine h₂ hrest with ⟨hnone, hlt⟩ | ⟨w₃, h₃, hlt₃, heq₃⟩
  · exact Or.inl ⟨heq₁.trans (heq₂.trans hnone), hlt⟩
  · exact Or.inr ⟨w₃, h₃, by omega, heq₁.trans (heq₂.trans heq₃)⟩

/-- The last line of the old format is not recognised in a window that ends within it. -/
theorem OldFormat.ways_usnLine_window (s : OldFormat) {rest w f : List Char} (h : s.usn ++ rest = w ++ f)
    (hf : rest.length < f.length) (m : Captures Char × List Char) : m ∉ usnLine.ways w := by
  intro hm
  have hlength := congrArg List.length h
  simp only [List.length_append] at hlength
  obtain ⟨z, hz⟩ : w <+: s.usn :=
    List.prefix_of_prefix_length_le ⟨f, h.symm⟩ (List.prefix_append _ rest) (by omega)
  obtain ⟨rfl, -⟩ := s.ways_usnLine hz.symm hm
  have hw := congrArg List.length hz
  simp only [List.length_append, List.length_nil] at hw
  omega

/-! ### Complete responses -/

/-- A window that contains its first part. -/
theorem exists_window {l rest w f : List Char} (h : l ++ rest = w ++ f) (hf : f.length ≤ rest.length) :
    ∃ w', w = l ++ w' ∧ rest = w' ++ f := by
  have hlength := congrArg List.length h
  simp only [List.length_append] at hlength
  obtain ⟨w', rfl⟩ : l <+: w :=
    List.prefix_of_prefix_length_le ⟨rest, h⟩ (List.prefix_append w f) (by omega)
  rw [List.append_assoc] at h
  exact ⟨w', rfl, List.append_cancel_left h⟩

/-- The expression for the third line of the newer format. -/
def idLine19 : Regex Char := seq (text "hue-bridgeid:") (seq (many isSpace) (line bridgeId19 eps))

theorem idLine19_of_lf {w : List Char} (hw : '\n' ∉ w) : idLine19.ways w = [] := by
  by_contra hne
  obtain ⟨m, hm⟩ := List.exists_mem_of_ne_nil _ hne
  obtain ⟨k, hk, k', hk', -⟩ := mem_ways_seq.mp hm
  obtain ⟨l, hl, l', hl', -⟩ := mem_ways_seq.mp hk'
  have hsuffix : l.2 <:+ w := (suffix_of_mem_ways hl).trans (suffix_of_mem_ways hk)
  have hnil := ways_line_of_lf (r := eps) rejects_bridgeId19 fun hmem => hw (hsuffix.subset hmem)
  rw [hnil] at hl'
  exact absurd hl' (by simp)

theorem NewFormat.head_whole_bridgeId19 (s : NewFormat) :
    (bridgeId19.whole (s.first :: s.more.text)).head? = some [(3, s.first :: s.more.text)] := by
  have hmem : ([(3, s.first :: s.more.text)], []) ∈ bridgeId19.ways (s.first :: s.more.text) := by
    refine mem_ways_group.mpr ⟨([], []), mem_ways_seq.mpr ?_, by simp⟩
    exact ⟨([], s.more.text), mem_ways_chr.mpr ⟨s.first, s.first_alnum, rfl, rfl⟩, ([], []),
      mem_ways_plus.mpr ⟨rfl, s.more.text, s.more.ne_nil, by simp, s.more.clean⟩, rfl⟩
  obtain ⟨c, cs, hcs⟩ := List.exists_cons_of_ne_nil (List.ne_nil_of_mem (mem_whole.mpr hmem))
  have hc : c ∈ bridgeId19.whole (s.first :: s.more.text) := by simp [hcs]
  obtain ⟨k, hk, heq⟩ := mem_ways_group.mp (mem_whole.mp hc)
  obtain ⟨l, hl, l', hl', rfl⟩ := mem_ways_seq.mp hk
  obtain ⟨-, -, -, hl⟩ := mem_ways_chr.mp hl
  have hrest : l'.2 = [] := (congrArg Prod.snd heq).symm
  have hcaptures := congrArg Prod.fst heq
  simp only [hl, (mem_ways_plus.mp hl').1, hrest, List.length_nil, Nat.sub_zero, List.take_length,
    List.append_nil] at hcaptures
  rw [hcs, hcaptures]
  rfl

theorem NewFormat.head_idLine19 (s : NewFormat) (t : List Char) :
    (idLine19.ways (s.idLine ++ (crlf ++ t))).head? = some ([(3, s.first :: s.more.text)], t) := by
  have hclean : Clean (s.first :: s.more.text) := by
    refine List.forall_mem_cons.mpr ⟨?_, s.more.clean⟩
    exact clean_of_alnum (w := [s.first]) (by simpa using s.first_alnum) s.first (by simp)
  have hline := head_line (r := eps) (t := t) (m := ([], t)) rejects_bridgeId19 hclean s.head_whole_bridgeId19 rfl
  have hnospace : ∀ c u, isSpace c = true → (line bridgeId19 eps).ways (c :: u) = [] := by
    intro c u hc
    have halnum : isAlnum c = false := by
      by_contra halnum
      rw [not_isSpace (Bool.of_not_eq_false halnum)] at hc
      exact Bool.false_ne_true hc
    simp [line, bridgeId19, ways_seq, ways_group, ways_chr_cons, halnum]
  have hdrop : (s.space ++ ((s.first :: s.more.text) ++ (crlf ++ t))).dropWhile isSpace =
      (s.first :: s.more.text) ++ (crlf ++ t) := by
    rw [List.dropWhile_append_of_pos]
    · exact List.dropWhile_cons_of_neg (by simp [not_isSpace s.first_alnum])
    · intro c hc
      rcases s.space_blank c hc with rfl | rfl <;> rfl
  have hspaces := ways_many_seq hnospace (s.space ++ ((s.first :: s.more.text) ++ (crlf ++ t)))
  rw [hdrop] at hspaces
  rw [← hspaces] at hline
  have hfield : ((lit idField).ways (s.idLine ++ (crlf ++ t))).head? =
      some ([], s.space ++ ((s.first :: s.more.text) ++ (crlf ++ t))) := by
    rw [NewFormat.idLine, List.append_assoc, ways_lit_append, List.append_assoc]
    rfl
  exact head_ways_seq hfield hline

theorem NewFormat.head_ways (s : NewFormat) (t : List Char) :
    (upnpResponseRegex19.ways (s.text ++ t)).head? =
      some ([(1, s.ip), (2, s.apiVersion), (3, s.first :: s.more.text)], t) := by
  have hserver := head_line rejects_serverLine s.clean_server s.head_whole_server (s.head_idLine19 t)
  have hlocation := head_line rejects_locationLine.1 s.clean_location s.head_whole_location hserver
  have htext : s.text ++ t =
      s.location ++ (crlf ++ (s.server ++ (crlf ++ (s.idLine ++ (crlf ++ t))))) := by
    simp only [NewFormat.text, List.append_assoc]
  rw [htext]
  exact hlocation

theorem resultOf19_id (ip apiVersion id : List Char) :
    resultOf19 [(1, ip), (2, apiVersion), (3, id)] = result id ip apiVersion := rfl

end HueStream.Methods.Upnp
