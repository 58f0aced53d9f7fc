import C1auncher.Wifi.Listing

/-!
`capture_networks` with any daemon that lists its networks page by page: it returns, and what it
stores is the whole list.
-/

namespace C1auncher.Wifi.Capture

open CString Routines Wifi.Control Wifi.Service List
open Wifi.Operations Wifi.Supplicant Wifi.Listing

/-! ### What a daemon lists -/

/-- A row of `LIST_NETWORKS`, without its end. -/
def rowText (id : ℤ) (name bssid flags : Text) : Text :=
  integer id ++ '\t' :: (name ++ '\t' :: (bssid ++ '\t' :: flags))

/-- One saved network as it is listed. -/
structure Row where
  id : ℤ
  name : Text
  bssid : Text
  flags : Text
  fields : ∀ c ∈ name ++ bssid ++ flags, c ≠ '\t' ∧ c ≠ '\n'
  short : (rowText id name bssid flags).length < listRowBound

namespace Row

variable (r : Row)

def text : Text := rowText r.id r.name r.bssid r.flags

/-- What is to be stored of it; a name that cannot be decoded is left empty. -/
def saved : SavedNetwork :=
  ⟨r.id, includes r.flags "[DISABLED]".toList, (decodeScanSsid r.name ssidCapacity).getD []⟩

def current : Bool := includes r.flags "[CURRENT]".toList

end Row

def fitting (limit used : ℕ) : List Row → List Row
  | [] => []
  | r :: rows =>
    if used + r.text.length + 1 ≤ limit then r :: fitting limit (used + r.text.length + 1) rows
    else []

/-- A reply to `LIST_NETWORKS`. -/
def page (limit : ℕ) (rows : List Row) : Text :=
  pageHeading ++ '\n' :: ((fitting limit (pageHeading.length + 1) rows).flatMap (·.text ++ ['\n']))

/-- A daemon, with its networks. A reply has room for 4096 bytes, of which one may be taken by the
end of the string. -/
structure Daemon where
  rows : List Row
  increasing : rows.Pairwise (·.id < ·.id)
  limit : ℕ
  room : 4095 ≤ limit
  /-- `LAST_ID` is understood. -/
  paging : Bool
  status : Text

namespace Daemon

variable (daemon : Daemon)

/-- The rows behind a `LAST_ID`, or all rows where it is ignored. -/
def behind (lastId : Option ℤ) : List Row :=
  if daemon.paging then daemon.rows.filter fun r => lastId.all (· < r.id) else daemon.rows

/-- The current network, of the status or else of the list. -/
def currentId : ℤ :=
  match statusId daemon.status with
  | some id => id
  | none => ((daemon.rows.find? Row.current).map Row.id).getD (-1)

/-- The commands are answered by the daemon, or not at all. -/
def Answers {D : Type} (io : WifiIo D) : Prop :=
  ∀ factory capacity ms d reply,
    ((io.command factory .status capacity ms d).1 = some reply → reply = daemon.status) ∧
    ∀ lastId, (io.command factory (.listNetworks lastId) capacity ms d).1 = some reply →
      reply = page daemon.limit (daemon.behind lastId)

end Daemon

/-! ### Rows are read back -/

lemma digits_value (n : ℕ) : (∀ c ∈ Nat.toDigits 10 n, c.isDigit) ∧ Nat.toDigits 10 n ≠ [] ∧
    Nat.ofDigitChars 10 (Nat.toDigits 10 n) 0 = n :=
  ⟨fun _ hc => Nat.isDigit_of_mem_toDigits (by omega) (by omega) hc, Nat.toDigits_ne_nil,
    Nat.ofDigitChars_ten_toDigits⟩

lemma parseInteger_digits {digits : Text} (h : ∀ c ∈ digits, c.isDigit) (hne : digits ≠ []) :
    parseInteger digits 0 intMax =
      if intMax < (Nat.ofDigitChars 10 digits 0 : ℕ) then (none : Option ℤ)
      else some ((Nat.ofDigitChars 10 digits 0 : ℕ) : ℤ) := by
  obtain ⟨c, text, htext⟩ := exists_cons_of_ne_nil hne
  have hc : c.isDigit := h c (htext ▸ mem_cons_self)
  have hspace : digits.dropWhile isSpace = digits := by
    rw [htext, dropWhile_cons_of_neg (by simp [not_isSpace_of_isDigit hc])]
  have hsign : digits.head? ≠ some '-' ∧ digits.head? ≠ some '+' := by
    rw [htext]
    constructor <;> rintro ⟨⟩ <;> cases hc
  simp only [parseInteger, hspace, hsign.1, hsign.2, or_self, if_false, hne,
    List.all_eq_true.mpr h, not_true_eq_false]
  by_cases hlarge : intMax < (Nat.ofDigitChars 10 digits 0 : ℕ)
  · rw [if_pos (.inr hlarge), if_pos hlarge]
  · rw [if_neg (by omega), if_neg hlarge]

lemma parseInteger_of_integer {n m : ℤ} (h : parseInteger (integer n) 0 intMax = some m) :
    m = n ∧ 0 ≤ n := by
  obtain ⟨hdigits, hne, hvalue⟩ := digits_value n.natAbs
  rcases lt_or_ge n 0 with hneg | hpos
  · -- the minus is read, and the number is refused
    have hspace : (integer n).dropWhile isSpace = '-' :: Nat.toDigits 10 n.natAbs := by
      rw [integer, if_pos hneg]
      rfl
    simp only [parseInteger, hspace, head?_cons, true_or, if_true, tail_cons, hne,
      List.all_eq_true.mpr hdigits, not_true_eq_false, or_self, if_false, hvalue] at h
    rw [if_pos (.inl (by omega))] at h
    cases h
  · rw [integer_of_nonneg hpos, parseInteger_digits hdigits hne, hvalue] at h
    obtain ⟨-, h⟩ := Option.ite_none_left_eq_some.mp h
    have := Option.some_inj.mp h
    omega

lemma notMem_integer {c : Char} (hc : c = '\t' ∨ c = '\n') (n : ℤ) : c ∉ integer n := by
  have hdigits : c ∉ Nat.toDigits 10 n.natAbs := fun h => by
    have hdigit := (digits_value n.natAbs).1 c h
    rcases hc with rfl | rfl <;> cases hdigit
  rw [integer]
  split_ifs
  · rw [mem_cons, not_or]
    exact ⟨by rcases hc with rfl | rfl <;> decide, hdigits⟩
  · exact hdigits

section Row

variable (r : Row)

lemma notMem_field {c : Char} (hc : c = '\t' ∨ c = '\n') :
    c ∉ r.name ∧ c ∉ r.bssid ∧ c ∉ r.flags := by
  have h : c ∉ r.name ++ r.bssid ++ r.flags := fun hmem => by
    obtain ⟨htab, hend⟩ := r.fields c hmem
    exact hc.elim htab hend
  simpa [and_assoc] using h

lemma text_end : '\n' ∉ r.text := by
  obtain ⟨hname, hbssid, hflags⟩ := notMem_field r (.inr rfl)
  simp [Row.text, rowText, notMem_integer (.inr rfl), hname, hbssid, hflags]

lemma text_ne_nil : r.text ≠ [] := by simp [Row.text, rowText]

/-- **A row is read back as it is to be stored**, or refused for its id. -/
lemma parseListRow_text {network : SavedNetwork} {current : Bool}
    (h : parseListRow r.text = some (network, current)) :
    network = r.saved ∧ current = r.current ∧ 0 ≤ r.id := by
  obtain ⟨hname, hbssid, hflags⟩ := notMem_field r (.inl rfl)
  have hlength : ¬listRowBound ≤ r.text.length := not_le.mpr r.short
  have hlast := lastField_append hflags r.bssid
  simp only [parseListRow, hlength, if_false] at h
  simp only [Row.text, rowText, cut_append (notMem_integer (.inl rfl) r.id), cut_append hname,
    Option.bind_eq_bind, Option.bind_some, hlast] at h
  rw [if_neg (by simp)] at h
  obtain ⟨id, hid, h⟩ := Option.bind_eq_some_iff.mp h
  obtain ⟨rfl, hpos⟩ := parseInteger_of_integer hid
  obtain ⟨rfl, rfl⟩ := Prod.mk.inj (Option.some_inj.mp h)
  exact ⟨rfl, rfl, hpos⟩

end Row

/-! ### Pages are read back -/

lemma fitting_spec {limit : ℕ} (hlimit : 4095 ≤ limit) (used : ℕ) (rows : List Row) :
    ∃ rest, rows = fitting limit used rows ++ rest ∧
      (used + ((fitting limit used rows).flatMap (·.text ++ ['\n'])).length + listRowBound <
        outputCapacity → rest = []) := by
  induction rows generalizing used with
  | nil => exact ⟨[], rfl, fun _ => rfl⟩
  | cons r rows ih =>
    have hshort : r.text.length < listRowBound := r.short
    rw [fitting]
    split_ifs with hfits
    · obtain ⟨rest, hrows, hroom⟩ := ih (used + r.text.length + 1)
      refine ⟨rest, congrArg (r :: ·) hrows, fun h => hroom ?_⟩
      simp only [flatMap_cons, length_append, length_cons, length_nil] at h
      omega
    · refine ⟨r :: rows, rfl, fun h => ?_⟩
      simp only [flatMap_nil, length_nil, listRowBound, outputCapacity] at h hshort
      omega

lemma captureRows_text {taken : List Row} {backup next : Backup} {lastId lastId' : ℤ}
    (h : captureRows (taken.map Row.text) backup lastId = some (next, lastId')) :
    next.networks = backup.networks ++ taken.map Row.saved ∧
      lastId' = (taken.map Row.id).getLastD lastId ∧
      (∀ r ∈ taken.head?, lastId < r.id) ∧ (∀ r ∈ taken, 0 ≤ r.id) ∧
      next.previousId = (if backup.previousId < 0 then
        ((taken.find? Row.current).map Row.id).getD backup.previousId else backup.previousId) := by
  induction taken generalizing backup lastId with
  | nil =>
    obtain ⟨rfl, rfl⟩ := Prod.ext_iff.mp (Option.some.inj h)
    simp
  | cons r taken ih =>
    rw [map_cons, captureRows] at h
    obtain ⟨-, h⟩ := Option.ite_none_left_eq_some.mp h
    cases hread : parseListRow r.text with
    | none => simp [hread] at h
    | some read =>
      obtain ⟨network, current⟩ := read
      obtain ⟨rfl, rfl, hid⟩ := parseListRow_text r hread
      simp only [hread] at h
      obtain ⟨horder, h⟩ := Option.ite_none_left_eq_some.mp h
      obtain ⟨hnetworks, hlast, -, hids, hprevious⟩ := ih h
      have hsaved : r.saved.id = r.id := rfl
      refine ⟨by simp [hnetworks], by rw [hlast, map_cons, getLastD_cons, hsaved], ?_,
        List.forall_mem_cons.mpr ⟨hid, hids⟩, ?_⟩
      · rintro _ ⟨⟩
        omega
      -- the first current network is kept, as its id is not negative
      rw [hprevious, hsaved, find?_cons]
      cases r.current <;> by_cases hneg : backup.previousId < 0 <;> simp [hneg, hid]

lemma length_captureRows {lines : List Text} {backup next : Backup} {lastId lastId' : ℤ}
    (hlength : backup.networks.length ≤ savedNetworks)
    (h : captureRows lines backup lastId = some (next, lastId')) :
    backup.networks.length ≤ next.networks.length ∧ next.networks.length ≤ savedNetworks := by
  induction lines generalizing backup lastId with
  | nil =>
    obtain ⟨rfl, rfl⟩ := Prod.ext_iff.mp (Option.some.inj h)
    exact ⟨le_rfl, hlength⟩
  | cons line lines ih =>
    rw [captureRows] at h
    obtain ⟨hfull, h⟩ := Option.ite_none_left_eq_some.mp h
    split at h
    · cases h
    obtain ⟨-, h⟩ := Option.ite_none_left_eq_some.mp h
    obtain ⟨hmore, hroom⟩ := ih
      (by rw [length_append, length_singleton]; omega) h
    rw [length_append] at hmore
    exact ⟨by omega, hroom⟩

lemma capturePage_text {limit : ℕ} (hlimit : 4095 ≤ limit) {rows : List Row} {backup next : Backup}
    {lastId lastId' : ℤ}
    (h : capturePage (page limit rows) backup lastId = some (next, lastId')) :
    ∃ taken rest, rows = taken ++ rest ∧
      captureRows (taken.map Row.text) backup lastId = some (next, lastId') ∧
      ((page limit rows).length + listRowBound < outputCapacity → rest = []) ∧
      (taken = [] → rest = []) := by
  obtain ⟨rest, hrows, hroom⟩ := fitting_spec hlimit (pageHeading.length + 1) rows
  set taken := fitting limit (pageHeading.length + 1) rows with htaken
  have hlines : (taken.flatMap (·.text ++ ['\n'])) =
      (taken.map Row.text).flatMap (· ++ ['\n']) := by
    rw [flatMap_map]
  have hpage : page limit rows =
      (pageHeading :: taken.map Row.text).flatMap (· ++ ['\n']) := by
    rw [page, ← htaken, hlines, flatMap_cons, append_assoc, singleton_append]
  have htokens : tokens '\n' (page limit rows) = pageHeading :: taken.map Row.text := by
    rw [hpage]
    refine tokens_lines (List.forall_mem_cons.mpr ⟨by decide, fun line hline => ?_⟩)
    obtain ⟨r, -, rfl⟩ := List.mem_map.mp hline
    exact ⟨text_end r, text_ne_nil r⟩
  have hlength : (page limit rows).length =
      pageHeading.length + 1 + (taken.flatMap (·.text ++ ['\n'])).length := by
    rw [page, ← htaken, length_append, length_cons]
    omega
  have hhead : pageHeading.take 32 = listHeading := by decide
  rw [capturePage] at h
  obtain ⟨-, h⟩ := Option.ite_none_left_eq_some.mp h
  simp only [htokens, hhead, ne_eq, not_true_eq_false, if_false] at h
  refine ⟨taken, rest, hrows, h, fun hshort => hroom (hlength ▸ hshort), fun hnone => hroom ?_⟩
  rw [hnone]
  decide

lemma length_capturePage {output : Text} {backup next : Backup} {lastId lastId' : ℤ}
    (hlength : backup.networks.length ≤ savedNetworks)
    (h : capturePage output backup lastId = some (next, lastId')) :
    backup.networks.length ≤ next.networks.length ∧ next.networks.length ≤ savedNetworks := by
  rw [capturePage] at h
  obtain ⟨-, h⟩ := Option.ite_none_left_eq_some.mp h
  split at h
  · cases h
  · obtain ⟨-, h⟩ := Option.ite_none_left_eq_some.mp h
    exact length_captureRows hlength h

/-! ### The loop -/

def currentAfter (start : ℤ) (rows : List Row) : ℤ :=
  if start < 0 then ((rows.find? Row.current).map Row.id).getD start else start

lemma currentAfter_append {start : ℤ} {front taken : List Row} (hfront : ∀ r ∈ front, 0 ≤ r.id) :
    (if currentAfter start front < 0 then
      ((taken.find? Row.current).map Row.id).getD (currentAfter start front)
      else currentAfter start front) = currentAfter start (front ++ taken) := by
  unfold currentAfter
  by_cases hstart : start < 0
  · simp only [if_pos hstart, find?_append]
    cases hfind : front.find? Row.current with
    | none => simp [hstart]
    | some r =>
      have := hfront r (mem_of_find?_eq_some hfind)
      simp [not_lt.mpr this]
  · simp only [if_neg hstart]

lemma currentAfter_statusId (daemon : Daemon) :
    currentAfter ((statusId daemon.status).getD (-1)) daemon.rows = daemon.currentId := by
  rw [Daemon.currentId]
  cases hstatus : statusId daemon.status with
  | none => rfl
  | some id =>
    obtain ⟨text, -, hid⟩ := Option.bind_eq_some_iff.mp hstatus
    obtain ⟨-, hid⟩ := Option.ite_none_left_eq_some.mp hid
    obtain ⟨hbounds, hid⟩ := Option.ite_none_left_eq_some.mp hid
    obtain rfl := Option.some_inj.mp hid
    exact if_neg fun hneg => hbounds (.inl hneg)

/-- The state of the loop of `capture_networks`: the rows up to those that are asked for next have
been read. -/
structure Listed (daemon : Daemon) (start : ℤ) (request : Option ℤ) (backup : Backup) (lastId : ℤ)
    (front rest : List Row) : Prop where
  rows : daemon.rows = front ++ rest
  networks : backup.networks = front.map Row.saved
  ids : ∀ r ∈ front, 0 ≤ r.id
  reached : lastId = (front.map Row.id).getLastD (-1)
  request : request = if front = [] then none else some lastId
  previous : backup.previousId = currentAfter start front

namespace Listed

variable {daemon : Daemon} {start : ℤ} {request : Option ℤ} {backup : Backup} {lastId : ℤ}
  {front rest : List Row}

lemma behind_eq (h : Listed daemon start request backup lastId front rest)
    (hpaging : daemon.paging = true ∨ front = []) : daemon.behind request = rest := by
  obtain ⟨hrows, -, -, hlast, hrequest, -⟩ := h
  by_cases hfront : front = []
  · subst hfront
    rw [if_pos rfl] at hrequest
    simp [Daemon.behind, hrequest, hrows]
  have hordered := daemon.increasing
  rw [hrows, ← nil_append front, append_assoc] at hordered
  rw [Daemon.behind, if_pos (hpaging.resolve_right hfront), hrequest, if_neg hfront, hlast, hrows]
  exact filter_behind hordered hfront (-1)

lemma front_nil (h : Listed daemon start request backup lastId front rest)
    (hpaging : daemon.paging ≠ true) {taken left : List Row}
    (hbehind : daemon.behind request = taken ++ left) (hfirst : ∀ r ∈ taken.head?, lastId < r.id)
    (hnone : taken = [] → left = []) : front = [] := by
  obtain ⟨hrows, -, -, hlast, -, -⟩ := h
  rw [Daemon.behind, if_neg hpaging, hrows] at hbehind
  obtain rfl | ⟨init, last, rfl⟩ := eq_nil_or_concat' front
  · rfl
  have hordered := daemon.increasing
  rw [hrows, pairwise_append] at hordered
  cases taken with
  | nil =>
    rw [hnone rfl] at hbehind
    simp at hbehind
  | cons r taken =>
    have hless : last.id < r.id := by simpa [hlast] using hfirst r rfl
    obtain rfl | ⟨s, init', rfl⟩ : init = [] ∨ ∃ s init', init = s :: init' := by
      cases init <;> simp
    · obtain ⟨rfl, -⟩ := cons.inj hbehind
      omega
    obtain ⟨rfl, -⟩ := cons.inj hbehind
    have := (List.pairwise_cons.mp hordered.1).1 last (by simp)
    omega

lemma next (h : Listed daemon start request backup lastId front rest) {next : Backup}
    {lastId' : ℤ}
    (hpage : capturePage (page daemon.limit (daemon.behind request)) backup lastId =
      some (next, lastId')) :
    ∃ taken left, rest = taken ++ left ∧ next.networks = backup.networks ++ taken.map Row.saved ∧
      next.previousId = currentAfter start (front ++ taken) ∧
      (taken ≠ [] → Listed daemon start (some lastId') next lastId' (front ++ taken) left) ∧
      ((page daemon.limit (daemon.behind request)).length + listRowBound < outputCapacity →
        left = []) ∧ (taken = [] → left = []) := by
  obtain ⟨taken, left, hbehind, hcapture, hroom, hnone⟩ := capturePage_text daemon.room hpage
  obtain ⟨hnetworks, hlast, hfirst, hids, hprevious⟩ := captureRows_text hcapture
  have hrest : rest = taken ++ left := by
    rw [← hbehind, h.behind_eq]
    by_cases hpaging : daemon.paging = true
    · exact .inl hpaging
    · exact .inr (h.front_nil hpaging hbehind hfirst hnone)
  have hcurrent : next.previousId = currentAfter start (front ++ taken) := by
    rw [hprevious, h.previous, currentAfter_append h.ids]
  refine ⟨taken, left, hrest, hnetworks, hcurrent, fun hne => ?_, hroom, hnone⟩
  exact {
    rows := by rw [h.rows, hrest, append_assoc]
    networks := by rw [hnetworks, h.networks, map_append]
    ids := fun r hr => (List.mem_append.mp hr).elim (h.ids r) (hids r)
    reached := by
      obtain ⟨init, last, rfl⟩ := (eq_nil_or_concat' taken).resolve_left hne
      rw [hlast, ← append_assoc]
      simp
    request := by rw [if_neg (by simp [hne])]
    previous := hcurrent }

end Listed

/-! ### The calls return -/

section
variable {D : Type} (io : WifiIo D)

lemma total_ask {α : Type} (f : D → α × D) : Total (ask f) := fun _ => rfl

lemma total_now : Total (now io) :=
  total_bind (total_ask _) fun _ => total_bind (total_modify _) fun _ => total_pure _

lemma total_continueOperation : Total (continueOperation io) := by
  have hrest : Total (do
      let s ← get
      if s.operationCancelled && !s.restoring then return false
      if s.operationDeadline = 0 then return true
      return (← now io) < s.operationDeadline : Op D Bool) :=
    total_bind total_get fun _ => total_ite (total_pure _) <| total_ite (total_pure _) <|
      total_bind (total_now io) fun _ => total_pure _
  refine total_bind total_get fun s => total_ite ?_ hrest
  exact total_bind (total_ask _) fun _ => total_bind (total_modify _) fun _ => hrest

lemma total_remainingMs (maximum : ℤ) : Total (remainingMs io maximum) := by
  refine total_bind (total_continueOperation io) fun go => total_ite ?_ (total_pure _)
  refine total_bind total_get fun s => total_ite (total_pure _) ?_
  exact total_bind (total_now io) fun _ => total_pure _

lemma total_command (c : Command) (capacity : ℕ) : Total (command io c capacity) := by
  refine total_bind (total_remainingMs io _) fun _ => total_ite (total_pure _) ?_
  refine total_bind total_get fun s => total_bind (total_ask _) fun reply => ?_
  cases reply with
  | none => exact total_pure _
  | some reply => exact total_bind (total_modify _) fun _ => total_pure _

lemma command_answered {c : Command} {capacity : ℕ} {Q : Text → Prop}
    (h : ∀ factory ms d, ∀ reply ∈ (io.command factory c capacity ms d).1, Q reply)
    (s : State D) : wlp (command io c capacity) (fun reply _ => ∀ r ∈ reply, Q r) s := by
  refine wlp_bind fun timeout t _ => wlp_ite (fun _ => wlp_pure nofun) fun _ => ?_
  refine wlp_bind (wlp_get (wlp_bind ?_))
  rintro reply u ⟨⟩
  cases hreply : (io.command t.usingFactoryControl c capacity timeout t.device).1 with
  | none => exact wlp_pure nofun
  | some reply =>
    refine wlp_bind (wlp_modify (wlp_pure ?_))
    rintro _ ⟨⟩
    exact h _ _ _ _ hreply

end

/-! ### Saved networks -/

section
variable {D : Type} (io : WifiIo D)

/-- **`capture_networks` returns** after one page more than there is room for networks, whatever
is answered. -/
lemma total_captureNetworks {fuel : ℕ} (hfuel : savedNetworks < fuel) :
    Total (captureNetworks io fuel) := by
  refine total_bind (total_command io _ _) fun status => ?_
  cases status with
  | none => exact total_pure _
  | some status =>
    refine total_ite (total_pure _) ?_
    refine total_turns (fun loop => ?_)
      (fun loop => loop.2.1.networks.length ≤ savedNetworks)
      (fun loop => savedNetworks - loop.2.1.networks.length) ?_ (Nat.zero_le _) (by simpa)
    · refine total_bind (total_continueOperation io) fun go => total_ite (total_pure _) ?_
      refine total_bind (total_command io _ _) fun output => ?_
      cases output with
      | none => exact total_pure _
      | some output =>
        dsimp only
        split
        · exact total_pure _
        · exact total_ite (total_pure _) (total_pure _)
    · -- a page that goes on has brought a network
      rintro ⟨request, backup, lastId⟩ s (hlength : backup.networks.length ≤ savedNetworks)
      refine wlp_bind (wlp_mono (fun _ _ _ => trivial) fun go t _ =>
        wlp_ite (fun _ => wlp_pure nofun) fun _ => ?_)
      refine wlp_bind (wlp_mono (fun _ _ _ => trivial) fun output u _ => ?_)
      cases output with
      | none => exact wlp_pure nofun
      | some output =>
        dsimp only
        cases hpage : capturePage output backup lastId with
        | none => exact wlp_pure nofun
        | some read =>
          obtain ⟨next, lastId'⟩ := read
          refine wlp_ite (fun _ => wlp_pure nofun) fun hmore => wlp_pure ?_
          rintro _ ⟨⟩
          obtain ⟨hgrown, hroom⟩ := length_capturePage hlength hpage
          dsimp only
          omega

variable {io} {daemon : Daemon} {fuel : ℕ} {s : State D}

lemma captureNetworks_listed (h : daemon.Answers io) : wlp (captureNetworks io fuel)
    (fun r _ => ∀ b ∈ r,
      b.networks = daemon.rows.map Row.saved ∧ b.previousId = daemon.currentId) s := by
  refine wlp_bind (wlp_mono (command_answered io (Q := (· = daemon.status))
    (fun factory ms d reply hreply => (h factory _ ms d reply).1 hreply) s)
    fun status t hstatus => ?_)
  cases status with
  | none => exact wlp_pure nofun
  | some status =>
    obtain rfl := hstatus status rfl
    refine wlp_ite (fun _ => wlp_pure nofun) fun _ => ?_
    set start := (statusId daemon.status).getD (-1) with hstart
    refine wlp_turns (fun loop _ => ∃ front rest,
      Listed daemon start loop.1 loop.2.1 loop.2.2 front rest) ?_
      ⟨[], daemon.rows, rfl, rfl, nofun, rfl, rfl, by simp [currentAfter]⟩
    rintro ⟨request, backup, lastId⟩ u
      ⟨front, rest, (hread : Listed daemon start request backup lastId front rest)⟩
    refine wlp_bind (wlp_mono (fun _ _ _ => trivial) fun go v _ =>
      wlp_ite (fun _ => wlp_pure nofun) fun _ => ?_)
    refine wlp_bind (wlp_mono (command_answered io
      (Q := (· = page daemon.limit (daemon.behind request)))
      (fun factory ms d reply hreply => (h factory _ ms d reply).2 request hreply) v)
      fun output x houtput => ?_)
    cases output with
    | none => exact wlp_pure nofun
    | some output =>
      obtain rfl := houtput output rfl
      dsimp only
      cases hpage : capturePage (page daemon.limit (daemon.behind request)) backup lastId with
      | none => exact wlp_pure nofun
      | some read =>
        obtain ⟨next, lastId'⟩ := read
        obtain ⟨taken, left, hrest, hnetworks, hprevious, hnext, hroom, hnone⟩ := hread.next hpage
        have hrows : daemon.rows = front ++ taken ++ left := by
          rw [hread.rows, hrest, append_assoc]
        refine wlp_ite (fun hdone => wlp_pure ?_) fun hmore => wlp_pure ?_
        · rintro _ ⟨⟩
          obtain rfl : left = [] := by
            rcases hdone with hsame | hshort
            · rw [hnetworks, length_append, length_map] at hsame
              exact hnone (List.length_eq_zero_iff.mp (by omega))
            · exact hroom hshort
          rw [append_nil] at hrows
          refine ⟨by rw [hnetworks, hread.networks, hrows, map_append], ?_⟩
          rw [hprevious, ← hrows, hstart, currentAfter_statusId]
        · refine ⟨front ++ taken, left, hnext ?_⟩
          rintro rfl
          exact hmore (.inl (by simp [hnetworks]))

/-- **`capture_networks` returns, with the whole list or with nothing**: where all that is answered
is the status and the list of the daemon, page after page or always from its start, every network
is stored, in order, and the current one with it. No list with a row left out is taken for
complete. -/
theorem saved_networks (hfuel : savedNetworks < fuel) (h : daemon.Answers io) :
    ∃ r s', captureNetworks io fuel s = some (r, s') ∧
      ∀ b ∈ r, b.networks = daemon.rows.map Row.saved ∧ b.previousId = daemon.currentId := by
  obtain ⟨⟨r, s'⟩, hrun⟩ := Option.isSome_iff_exists.mp (total_captureNetworks io hfuel s)
  exact ⟨r, s', hrun, captureNetworks_listed h r s' hrun⟩

end

/-- A daemon with one network, of a name that cannot be decoded. -/
def oneNetwork : Daemon where
  rows := [⟨3, "\\x00".toList, "any".toList, "[CURRENT]".toList, by simp, by decide⟩]
  increasing := List.pairwise_singleton _ _
  limit := 4095
  room := le_rfl
  paging := false
  status := "wpa_state=SCANNING\n".toList

/-- It is always there. -/
def oneNetworkIo : WifiIo Unit where
  now := (0, ·)
  sleep _ := id
  progress _ := (true, ·)
  disabledMarker := (false, ·)
  setDisabledMarker _ := (true, ·)
  controlReady _ _ := ((true, false), ·)
  ready := (⟨true, none, false, false⟩, ·)
  command _ c _ _ := (match c with
    | .status => some oneNetwork.status
    | .listNetworks lastId => some (page oneNetwork.limit (oneNetwork.behind lastId))
    | _ => none, ·)
  observeStatus _ _ := (none, ·)
  address := (none, ·)
  dhcpAvailable := (true, ·)
  dhcp _ := ((false, false), ·)
  stopDhcp := ((true, false), ·)
  clearAddress := (true, ·)
  secureConfig := (true, ·)
  backupConfig := (none, ·)
  restoreConfig _ := (true, ·)
  enable _ := (true, ·)
  eventsOpen := ((false, false), ·)
  eventsWait _ := (.none, ·)
  eventsClose := id
  psk _ _ := []

theorem saved_networks_one :
    (captureNetworks oneNetworkIo 129 (.start ())).map (fun r => r.1.map Backup.networks) =
      some (some [⟨3, false, []⟩]) ∧
    ∃ r s', captureNetworks oneNetworkIo 129 (.start ()) = some (r, s') ∧
      ∀ b ∈ r, b.networks = oneNetwork.rows.map Row.saved ∧ b.previousId = oneNetwork.currentId :=
  ⟨by decide +kernel, saved_networks (by decide) fun _ _ _ _ _ =>
    ⟨fun h => (Option.some_inj.mp h).symm, fun _ h => (Option.some_inj.mp h).symm⟩⟩

end C1auncher.Wifi.Capture
