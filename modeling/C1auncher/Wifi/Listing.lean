import C1auncher.Wifi.Frames
import C1auncher.Wifi.Supplicant

/-!
`capture_networks` reads back what `LIST_NETWORKS` writes, page after page.
-/

namespace C1auncher.Wifi.Listing

open CString Routines Wifi.Control Wifi.Service
open Wifi.Operations Wifi.Frames Wifi.Supplicant

/-! ### Numbers -/

variable {n : ℤ} {c : Char}

lemma integer_of_nonneg (h : 0 ≤ n) : integer n = Nat.toDigits 10 n.natAbs := by
  simp [integer, not_lt.mpr h]

lemma isDigit_of_mem_integer (h : 0 ≤ n) (hc : c ∈ integer n) : c.isDigit := by
  rw [integer_of_nonneg h] at hc
  exact Nat.isDigit_of_mem_toDigits (by omega) (by omega) hc

lemma integer_ne_nil (h : 0 ≤ n) : integer n ≠ [] := by
  rw [integer_of_nonneg h]
  exact Nat.toDigits_ne_nil

lemma length_integer (h : 0 ≤ n) (hle : n ≤ intMax) : (integer n).length ≤ 10 := by
  rw [integer_of_nonneg h, Nat.length_toDigits_le_iff (by omega) (by omega)]
  unfold intMax at hle
  omega

lemma not_isSpace_of_isDigit (h : c.isDigit) : isSpace c = false := by
  by_contra hs
  simp only [Bool.not_eq_false, isSpace, decide_eq_true_eq, List.mem_cons, List.not_mem_nil,
    or_false] at hs
  rcases hs with rfl | rfl | rfl | rfl | rfl | rfl <;> simp at h

lemma parseInteger_integer (h : 0 ≤ n) (hle : n ≤ intMax) :
    parseInteger (integer n) 0 intMax = some n := by
  have hdigit : ∀ c ∈ integer n, c.isDigit := fun c => isDigit_of_mem_integer h
  have hvalue : ((Nat.ofDigitChars 10 (integer n) 0 : ℕ) : ℤ) = n := by
    rw [integer_of_nonneg h, Nat.ofDigitChars_ten_toDigits, Int.natAbs_of_nonneg h]
  obtain ⟨c, text, htext⟩ := List.exists_cons_of_ne_nil (integer_ne_nil h)
  have hc : c.isDigit := hdigit c (htext ▸ List.mem_cons_self)
  have hspace : (integer n).dropWhile isSpace = integer n := by
    rw [htext, List.dropWhile_cons_of_neg (by simp [not_isSpace_of_isDigit hc])]
  have hminus : (integer n).head? ≠ some '-' := by
    rw [htext]
    rintro ⟨⟩
    simp at hc
  have hplus : (integer n).head? ≠ some '+' := by
    rw [htext]
    rintro ⟨⟩
    simp at hc
  simp only [parseInteger, hspace, hminus, hplus, or_self, if_false, integer_ne_nil h,
    List.all_eq_true.mpr hdigit, not_true_eq_false, hvalue]
  rw [if_neg (by omega)]

/-! ### Rows -/

lemma digitChar_ne (hc : c = '\t' ∨ c = '\n') (n : ℕ) : n.digitChar ≠ c := by
  rcases Nat.lt_or_ge n 16 with hn | hn
  · interval_cases n <;> rcases hc with rfl | rfl <;> decide
  · rw [Nat.digitChar_eq_star.mpr hn]
    rcases hc with rfl | rfl <;> decide

lemma notMem_printByte (hc : c = '\t' ∨ c = '\n') (b : Char) : c ∉ printByte b := by
  have hdigit := fun n => (digitChar_ne hc n).symm
  unfold printByte
  split_ifs with h1 h2 h3 h4 h5 h6 h7
  all_goals rcases hc with rfl | rfl
  all_goals first
    | decide
    | simp only [hexByte, List.mem_cons, List.not_mem_nil, or_false, hdigit]
      decide
    | rintro hmem
      obtain rfl := List.mem_singleton.mp hmem
      exact absurd h7.1 (by decide)

lemma notMem_printSsid (hc : c = '\t' ∨ c = '\n') (ssid : Text) :
    c ∉ printSsid ssid := by
  simp only [printSsid, List.mem_flatMap, not_exists, not_and]
  exact fun b _ => notMem_printByte hc b

lemma length_printByte (c : Char) : (printByte c).length ≤ 4 := by
  unfold printByte
  split_ifs <;> simp [hexByte]

lemma length_printSsid (ssid : Text) : (printSsid ssid).length ≤ 4 * ssid.length := by
  induction ssid with
  | nil => simp [printSsid]
  | cons c ssid ih =>
    have := length_printByte c
    simp only [printSsid, List.flatMap_cons, List.length_append, List.length_cons] at ih ⊢
    omega

lemma notMem_printBssid (hc : c = '\t' ∨ c = '\n')
    (bssid : Option (Fin 6 → Fin 256)) : c ∉ printBssid bssid := by
  have hdigit := fun n => (digitChar_ne hc n).symm
  have hcolon : c ≠ ':' := by rcases hc with rfl | rfl <;> decide
  cases bssid with
  | none => rcases hc with rfl | rfl <;> decide
  | some b =>
    simp [printBssid, hexByte, List.ofFn_succ, List.intercalate, List.intersperse, hdigit, hcolon]

lemma length_printBssid (bssid : Option (Fin 6 → Fin 256)) : (printBssid bssid).length ≤ 17 := by
  cases bssid with
  | none => decide
  | some b => simp [printBssid, hexByte, List.ofFn_succ, List.intercalate, List.intersperse]

lemma notMem_rowFlags (hc : c = '\t' ∨ c = '\n') (current disabled temporary : Bool) :
    c ∉ rowFlags current disabled temporary := by
  rcases hc with rfl | rfl <;> revert current disabled temporary <;> decide

lemma length_rowFlags (current disabled temporary : Bool) :
    (rowFlags current disabled temporary).length ≤ 34 := by
  revert current disabled temporary
  decide

lemma includes_rowFlags (current disabled temporary : Bool) :
    includes (rowFlags current disabled temporary) "[DISABLED]".toList = disabled ∧
      includes (rowFlags current disabled temporary) "[CURRENT]".toList = current := by
  revert current disabled temporary
  decide

section
variable (current : Option ℤ) (temporary : ℤ → Bool) (p : Profile)

lemma notMem_rowLine : '\n' ∉ rowLine current temporary p := by
  have hid : '\n' ∉ integer p.id := fun h => by
    simpa using isDigit_of_mem_integer p.id_nonneg h
  simp only [rowLine, List.mem_append, List.mem_cons, hid, notMem_printSsid (.inr rfl),
    notMem_printBssid (.inr rfl), notMem_rowFlags (.inr rfl), or_false, false_or]
  decide

lemma length_rowLine : (rowLine current temporary p).length < 256 := by
  have hid := length_integer p.id_nonneg p.id_le
  have hssid := length_printSsid p.ssid
  have hssid' := p.ssid_length
  have hbssid := length_printBssid p.bssid
  have hflags := length_rowFlags (current = some p.id) p.disabled (temporary p.id)
  simp only [rowLine, List.length_append, List.length_cons]
  omega

lemma rowLine_ne_nil : rowLine current temporary p ≠ [] := by
  simp [rowLine, integer_ne_nil p.id_nonneg]

lemma cut_append {c : Char} {text : Text} (h : c ∉ text) (rest : Text) :
    cut c (text ++ c :: rest) = some (text, rest) := by
  have hpos : ∀ x ∈ text, (decide (x ≠ c)) = true := fun x hx => by
    simpa using fun heq : x = c => h (heq ▸ hx)
  rw [cut, if_pos (by simp), List.takeWhile_append_of_pos hpos, List.dropWhile_append_of_pos hpos]
  simp

lemma lastField_append {c : Char} {text : Text} (h : c ∉ text) (rest : Text) :
    ((rest ++ c :: text).reverse.takeWhile (· ≠ c)).reverse = text := by
  have hpos : ∀ x ∈ text.reverse, (decide (x ≠ c)) = true := fun x hx => by
    simpa using fun heq : x = c => h (heq ▸ List.mem_reverse.mp hx)
  rw [List.reverse_append, List.reverse_cons, List.append_assoc, List.takeWhile_append_of_pos hpos]
  simp

lemma parseListRow_rowLine :
    parseListRow (rowLine current temporary p) = some (p.saved, decide (current = some p.id)) := by
  have hid : '\t' ∉ integer p.id := fun h => by
    simpa using isDigit_of_mem_integer p.id_nonneg h
  have hlength : ¬listRowBound ≤ (rowLine current temporary p).length := by
    have := length_rowLine current temporary p
    simp only [listRowBound]
    omega
  obtain ⟨hdisabled, hcurrent⟩ :=
    includes_rowFlags (current = some p.id) p.disabled (temporary p.id)
  have hlast := lastField_append (notMem_rowFlags (.inl rfl) (decide (current = some p.id))
    p.disabled (temporary p.id)) (printBssid p.bssid)
  simp only [parseListRow, hlength, if_false]
  simp only [rowLine, List.append_assoc, List.cons_append, cut_append hid,
    cut_append (notMem_printSsid (.inl rfl) p.ssid), Option.bind_eq_bind, Option.bind_some, hlast,
    parseInteger_integer p.id_nonneg p.id_le, hdisabled, hcurrent]
  simp [Profile.saved]

end

/-! ### Pages -/

lemma tokens_lines {lines : List Text} (h : ∀ line ∈ lines, '\n' ∉ line ∧ line ≠ []) :
    tokens '\n' (lines.flatMap (· ++ ['\n'])) = lines := by
  unfold tokens
  induction lines with
  | nil => rfl
  | cons line lines ih =>
    obtain ⟨⟨hline, hne⟩, hlines⟩ := List.forall_mem_cons.mp h
    rw [List.flatMap_cons, List.append_assoc, List.singleton_append, List.splitOn_append_cons_self,
      List.splitOn_eq_singleton hline, List.filter_append, ih hlines]
    simp [hne]

/-- The rows of a page are those of the first networks; it leaves one out only where little room
is left, and never the first. -/
lemma rows_eq {line : Profile → Text} (hline : ∀ p, (line p).length < 256) (used : ℕ)
    (list : List Profile) : ∃ taken rest, list = taken ++ rest ∧
      Profiles.rows line used list = (taken.map line).flatMap (· ++ ['\n']) ∧
      (used + (Profiles.rows line used list).length + listRowBound < outputCapacity → rest = []) ∧
      (used + listRowBound < outputCapacity → taken = [] → rest = []) := by
  induction list generalizing used with
  | nil => exact ⟨[], [], rfl, rfl, fun _ => rfl, fun _ _ => rfl⟩
  | cons p list ih =>
    have hp := hline p
    unfold Profiles.rows
    split_ifs with hfits
    · obtain ⟨taken, rest, hlist, hrows, hshort, -⟩ := ih (used + (line p).length + 1)
      refine ⟨p :: taken, rest, by rw [hlist, List.cons_append], by simp [hrows],
        fun h => ?_, nofun⟩
      refine hshort ?_
      simp only [List.length_append, List.length_cons] at h
      omega
    · simp only [listRowBound, outputCapacity] at hfits ⊢
      refine ⟨[], p :: list, rfl, rfl, fun h => ?_, fun h => ?_⟩
      · simp only [List.length_nil] at h
        omega
      · omega

lemma captureRows_map {current : Option ℤ} {temporary : ℤ → Bool} {taken : List Profile}
    {backup next : Backup} {lastId lastId' : ℤ}
    (h : captureRows (taken.map (rowLine current temporary)) backup lastId =
      some (next, lastId')) :
    next.networks = backup.networks ++ taken.map Profile.saved ∧
      lastId' = (taken.map Profile.id).getLastD lastId ∧
      next.previousCompleted = backup.previousCompleted ∧
      (0 ≤ backup.previousId → next.previousId = backup.previousId) := by
  induction taken generalizing backup lastId with
  | nil =>
    obtain ⟨rfl, rfl⟩ := Prod.ext_iff.mp (Option.some.inj h)
    exact ⟨by simp, rfl, rfl, fun _ => rfl⟩
  | cons p taken ih =>
    simp only [List.map_cons, captureRows, parseListRow_rowLine] at h
    by_cases hfull : backup.networks.length = savedNetworks
    · simp [hfull] at h
    by_cases horder : p.saved.id ≤ lastId
    · rw [if_neg hfull, if_pos horder] at h
      contradiction
    simp only [hfull, horder, if_false] at h
    obtain ⟨hnetworks, hlast, hcompleted, hprevious⟩ := ih h
    refine ⟨by simp [hnetworks], by rw [hlast, List.map_cons, List.getLastD_cons]; rfl, hcompleted,
      fun hnonneg => ?_⟩
    have hold : ¬backup.previousId < 0 := by omega
    simp only [hold, and_false, if_false] at hprevious
    exact hprevious hnonneg

lemma capturePage_page {profiles : Profiles} {current request : Option ℤ} {temporary : ℤ → Bool}
    {backup next : Backup} {lastId lastId' : ℤ}
    (h : capturePage (profiles.page current temporary request) backup lastId =
      some (next, lastId')) :
    ∃ taken rest, profiles.list.filter (fun p => request.all (· < p.id)) = taken ++ rest ∧
      next.networks = backup.networks ++ taken.map Profile.saved ∧
      lastId' = (taken.map Profile.id).getLastD lastId ∧
      next.previousCompleted = backup.previousCompleted ∧
      (0 ≤ backup.previousId → next.previousId = backup.previousId) ∧
      (taken = [] → rest = []) ∧
      ((profiles.page current temporary request).length + listRowBound < outputCapacity →
        rest = []) := by
  obtain ⟨taken, rest, hlist, hrows, hshort, hsome⟩ :=
    rows_eq (length_rowLine current temporary) (pageHeading.length + 1)
      (profiles.list.filter fun p => request.all (· < p.id))
  have hpage : profiles.page current temporary request =
      (pageHeading :: taken.map (rowLine current temporary)).flatMap (· ++ ['\n']) := by
    rw [Profiles.page, hrows, List.flatMap_cons, List.append_assoc, List.singleton_append]
  have htokens : tokens '\n' (profiles.page current temporary request) =
      pageHeading :: taken.map (rowLine current temporary) := by
    rw [hpage]
    refine tokens_lines (List.forall_mem_cons.mpr ⟨by decide, fun line hline => ?_⟩)
    obtain ⟨p, -, rfl⟩ := List.mem_map.mp hline
    exact ⟨notMem_rowLine _ _ _, rowLine_ne_nil _ _ _⟩
  have hlength : (profiles.page current temporary request).length = pageHeading.length + 1 +
      (Profiles.rows (rowLine current temporary) (pageHeading.length + 1)
        (profiles.list.filter fun p => request.all (· < p.id))).length := by
    rw [Profiles.page, List.length_append, List.length_cons]
    omega
  have hhead : pageHeading.take 32 = listHeading := by decide
  unfold capturePage at h
  split_ifs at h
  simp only [htokens, hhead, ne_eq, not_true_eq_false, if_false] at h
  obtain ⟨hnetworks, hlast, hcompleted, hprevious⟩ := captureRows_map h
  exact ⟨taken, rest, hlist, hnetworks, hlast, hcompleted, hprevious, hsome (by decide),
    fun hle => hshort (hlength ▸ hle)⟩

lemma capturePage_fail (backup : Backup) (lastId : ℤ) :
    capturePage "FAIL\n".toList backup lastId = none := by
  have htokens : tokens '\n' "FAIL\n".toList = ["FAIL".toList] := by decide
  simp only [capturePage, htokens]
  rw [if_neg (by decide), if_pos (by decide)]

lemma filter_behind {α : Type} {key : α → ℤ} {front taken rest : List α}
    (hordered : (front ++ (taken ++ rest)).Pairwise (key · < key ·)) (hne : taken ≠ [])
    (lastId : ℤ) :
    (front ++ (taken ++ rest)).filter
      (fun a => (some ((taken.map key).getLastD lastId)).all (· < key a)) = rest := by
  obtain ⟨init, last, rfl⟩ := (List.eq_nil_or_concat' taken).resolve_left hne
  have hlast : ((init ++ [last]).map key).getLastD lastId = key last := by simp
  rw [← List.append_assoc, ← List.append_assoc, List.append_assoc _ [last]] at hordered
  obtain ⟨-, htail, hfront⟩ := List.pairwise_append.mp hordered
  have hrest : ∀ a ∈ rest, key last < key a := (List.pairwise_cons.mp htail).1
  rw [hlast, ← List.append_assoc, ← List.append_assoc, List.append_assoc _ [last],
    List.filter_append, List.singleton_append, List.filter_cons_of_neg (by simp)]
  have hnone : (front ++ init).filter (fun a => (some (key last)).all (· < key a)) = [] := by
    refine List.filter_eq_nil_iff.mpr fun a ha => ?_
    have := hfront a ha last List.mem_cons_self
    simp only [Option.all_some, decide_eq_true_eq]
    omega
  have hall : rest.filter (fun a => (some (key last)).all (· < key a)) = rest :=
    List.filter_eq_self.mpr fun a ha => by simpa using hrest a ha
  rw [hnone, hall, List.nil_append]

/-! ### The device while the service only asks -/

/-- A command is carried out and answered, or carried out and not answered, or nothing happens. -/
inductive Sent (turn : Turn) (c : Command) (site : Site) : Option Text → Site → Prop
  | answered {host : Host} {reply : Text} (carry : site.host.carry turn c = some (host, reply))
      (outcome : turn.outcome c = .answered) :
      Sent turn c site (some reply) (site.carried c host)
  | unheard {host : Host} {reply : Text} {received : Option Text}
      (carry : site.host.carry turn c = some (host, reply))
      (heard : received = none ∨ received = some "FAIL\n".toList)
      (outcome : turn.outcome c = .answered → outputCapacity ≤ reply.length ∨ c ≠ .addNetwork) :
      Sent turn c site received (site.carried c host)
  | passed {received : Option Text} (heard : received = none ∨ received = some "FAIL\n".toList) :
      Sent turn c site received site.passed

lemma sent_command (script : ℕ → Turn) (c : Command) (capacity : ℕ)
    (hcapacity : c = .addNetwork → capacity = outputCapacity) (site : Site) :
    Sent (script site.turn) c site (site.command script c capacity).1
      (site.command script c capacity).2 := by
  have hfail : received "FAIL\n".toList capacity = none ∨
      received "FAIL\n".toList capacity = some "FAIL\n".toList := by
    unfold received
    split_ifs <;> simp
  have hunanswered {reply : Option Text} (carried : Bool)
      (hreply : reply = none ∨ reply = some "FAIL\n".toList)
      (houtcome : (script site.turn).outcome c ≠ .answered) :
      Sent (script site.turn) c site reply (site.unanswered (script site.turn) c carried) := by
    unfold Site.unanswered
    split
    · split_ifs
      · rename_i hcarry _
        exact .unheard hcarry hreply fun h => absurd h houtcome
      · exact .passed hreply
    · exact .passed hreply
  cases houtcome : (script site.turn).outcome c with
  | answered =>
    cases hcarry : site.host.carry (script site.turn) c with
    | none =>
      simp only [Site.command, houtcome, hcarry]
      exact .passed hfail
    | some result =>
      simp only [Site.command, houtcome, hcarry, received]
      split_ifs with hlength
      · exact .answered hcarry houtcome
      refine .unheard hcarry (.inl rfl) fun _ => ?_
      by_cases hadd : c = .addNetwork
      · exact .inl (hcapacity hadd ▸ not_lt.mp hlength)
      · exact .inr hadd
  | lost carried =>
    simp only [Site.command, houtcome]
    exact hunanswered carried (.inl rfl) (by simp [houtcome])
  | failed carried =>
    simp only [Site.command, houtcome]
    exact hunanswered carried hfail (by simp [houtcome])

/-- The device is as it was, but for the line of the script. -/
def Steady (s s' : State Site) : Prop :=
  s'.device.host = s.device.host ∧ s'.device.added = s.device.added

lemma Steady.refl (s : State Site) : Steady s s := ⟨rfl, rfl⟩

lemma Steady.trans {s t u : State Site} (h : Steady s t) (h' : Steady t u) : Steady s u :=
  ⟨h'.1.trans h.1, h'.2.trans h.2⟩

lemma carry_asks {turn : Turn} {h host : Host} {c : Command} {reply : Text} (hc : asks c = true)
    (hcarry : h.carry turn c = some (host, reply)) : host = h := by
  cases c with
  | status =>
    simp only [Host.carry] at hcarry
    split_ifs at hcarry
    exact (Prod.ext_iff.mp (Option.some.inj hcarry)).1.symm
  | ping | listNetworks _ | getNetwork _ _ | bss _ =>
    exact (Prod.ext_iff.mp (Option.some.inj hcarry)).1.symm
  | _ => simp [asks] at hc

section
variable {psk : Text → Text → Text} {script : ℕ → Turn} {fuel : ℕ} {s : State Site}

lemma steady_ask {α : Type} {f : Site → α × Site}
    (h : ∀ site, (f site).2.host = site.host ∧ (f site).2.added = site.added) :
    Keeps Steady (ask f) := by
  rintro s _ _ ⟨⟩
  exact h s.device

lemma steady (psk : Text → Text → Text) (script : ℕ → Turn) :
    Frame (siteIo psk script) (fun c => asks c = true) Steady where
  refl := Steady.refl
  trans := Steady.trans
  own hd _ _ _ := ⟨by rw [hd], by rw [hd]⟩
  see _ _ := wlp_modify (Steady.refl _)
  hear _ _ := wlp_modify (Steady.refl _)
  askNow := steady_ask fun _ => ⟨rfl, rfl⟩
  sleep _ := steady_ask fun _ => ⟨rfl, rfl⟩
  askProgress _ := steady_ask fun _ => ⟨rfl, rfl⟩
  askMarker := steady_ask fun _ => ⟨rfl, rfl⟩
  askSetMarker _ := steady_ask fun _ => ⟨rfl, rfl⟩
  askReady := steady_ask fun _ => ⟨rfl, rfl⟩
  askAddress := steady_ask fun _ => ⟨rfl, rfl⟩
  askDhcpAvailable := steady_ask fun _ => ⟨rfl, rfl⟩
  askBackup := steady_ask fun _ => ⟨rfl, rfl⟩
  askCommand {c} hc factory capacity ms := by
    refine steady_ask fun site => ?_
    have hadd : c ≠ .addNetwork := by
      rintro rfl
      simp [asks] at hc
    have hsent := sent_command script c capacity (fun h => absurd h hadd) site
    change ((site.command script c capacity).2.host = site.host ∧
      (site.command script c capacity).2.added = site.added)
    generalize (site.command script c capacity).1 = reply at hsent
    generalize (site.command script c capacity).2 = site' at hsent ⊢
    cases hsent with
    | answered carry _ => simp [Site.carried, carry_asks hc carry, hadd]
    | unheard carry _ _ => simp [Site.carried, carry_asks hc carry, hadd]
    | passed _ => exact ⟨rfl, rfl⟩
  sent_of_asks h := h

lemma command_sent (c : Command) (capacity : ℕ)
    (hcapacity : c = .addNetwork → capacity = outputCapacity) :
    wlp (command (siteIo psk script) c capacity) (fun reply s' =>
      (reply = none ∧ Steady s s') ∨ ∃ t, Steady s t ∧
        Sent (script t.device.turn) c t.device reply s'.device) s := by
  refine wlp_bind (wlp_mono ((steady psk script).keeps_remainingMs 750 s) fun timeout t ht => ?_)
  refine wlp_ite (fun _ => wlp_pure (.inl ⟨rfl, ht⟩)) fun _ => wlp_bind (wlp_get ?_)
  have hsent := sent_command script c capacity hcapacity t.device
  refine wlp_bind ?_
  rintro reply u ⟨⟩
  have heq : ((siteIo psk script).command t.usingFactoryControl c capacity timeout t.device).1 =
      (t.device.command script c capacity).1 := rfl
  rw [heq]
  cases hreply : (t.device.command script c capacity).1 with
  | none => exact wlp_pure (.inr ⟨t, ht, hreply ▸ hsent⟩)
  | some reply => exact wlp_bind (wlp_modify (wlp_pure (.inr ⟨t, ht, hreply ▸ hsent⟩)))

lemma command_asks {c : Command} (hc : asks c = true) (capacity : ℕ) :
    wlp (command (siteIo psk script) c capacity) (fun reply s' => Steady s s' ∧ ∀ r ∈ reply,
      r = "FAIL\n".toList ∨
        ∃ turn, s.device.host.carry turn c = some (s.device.host, r)) s := by
  have hadd : c ≠ .addNetwork := by
    rintro rfl
    simp [asks] at hc
  refine wlp_mono (wlp_and ((steady psk script).keeps_command hc capacity s)
    (command_sent c capacity fun h => absurd h hadd)) fun reply s' ⟨hst, hsent⟩ => ⟨hst, ?_⟩
  rintro r ⟨⟩
  obtain ⟨hnone, -⟩ | ⟨t, ht, hsent⟩ := hsent
  · contradiction
  generalize s'.device = site at hsent
  cases hsent with
  | answered carry _ =>
    obtain rfl := carry_asks hc carry
    exact .inr ⟨_, ht.1 ▸ carry⟩
  | unheard _ heard _ => exact .inl (by simpa using heard)
  | passed heard => exact .inl (by simpa using heard)

/-- What `capture_networks` finds out about the device. -/
structure Captured (h : Host) (b : Backup) : Prop where
  networks : b.networks = h.saved.list.map Profile.saved
  previous : b.previousCompleted = true → h.current = some b.previousId ∧ 0 ≤ b.previousId

lemma current_of_admits {h : Host} {status : Text} (hadmits : h.admits status = true)
    (hcompleted : (completedStatus status none none).isSome) :
    h.current = some ((statusId status).getD (-1)) ∧ 0 ≤ (statusId status).getD (-1) := by
  obtain ⟨ssid, hssid⟩ := Option.isSome_iff_exists.mp hcompleted
  simp only [Host.admits, (completedStatus_eq_some.mp hssid).1, Option.all_some, List.any_eq_true,
    decide_eq_true_eq] at hadmits
  obtain ⟨p, -, hcurrent, hid, -⟩ := hadmits
  rw [hid]
  exact ⟨hcurrent, p.id_nonneg⟩

/-- The state of the loop of `capture_networks`: the backup has the networks up to those that are
asked for next. -/
def Reading (h : Host) (start : Backup) (loop : Option ℤ × Backup × ℤ) : Prop :=
  ∃ front rest, h.saved.list = front ++ rest ∧
    h.saved.list.filter (fun p => loop.1.all (· < p.id)) = rest ∧
    loop.2.1.networks = front.map Profile.saved ∧
    loop.2.1.previousCompleted = start.previousCompleted ∧
    (0 ≤ start.previousId → loop.2.1.previousId = start.previousId)

/-- **`capture_networks` has every saved network**, in order, with its bit, whatever pages it takes;
and if it found the connection complete, it has the network of that connection. -/
theorem captureNetworks_captured : wlp (captureNetworks (siteIo psk script) fuel)
    (fun r s' => Steady s s' ∧ ∀ b ∈ r, Captured s.device.host b) s := by
  refine wlp_bind (wlp_mono (command_asks (c := .status) rfl _) fun status t ⟨hst, hstatus⟩ => ?_)
  cases status with
  | none => exact wlp_pure ⟨hst, nofun⟩
  | some status =>
    refine wlp_ite (fun _ => wlp_pure ⟨hst, nofun⟩) fun _ => ?_
    set start : Backup := {
      networks := []
      previousId := (statusId status).getD (-1)
      previousSsid := (completedStatus status none none).getD []
      previousCompleted := (completedStatus status none none).isSome
      previousDisconnected :=
        statusValue status "wpa_state".toList 32 = some "DISCONNECTED".toList } with hstart
    have hprevious : start.previousCompleted = true →
        s.device.host.current = some start.previousId ∧ 0 ≤ start.previousId := by
      intro hcompleted
      obtain rfl | ⟨turn, hcarry⟩ := hstatus status rfl
      · exact absurd hcompleted (by decide)
      simp only [Host.carry] at hcarry
      split_ifs at hcarry with hadmits
      rw [Option.some.injEq, Prod.mk.injEq] at hcarry
      exact current_of_admits (hcarry.2 ▸ hadmits) hcompleted
    refine wlp_turns (fun loop u => Steady s u ∧ Reading s.device.host start loop)
      (fun ⟨request, backup, lastId⟩ u ⟨hsu, hreading⟩ => ?_)
      ⟨hst, [], s.device.host.saved.list, rfl, by simp, rfl, rfl, fun _ => rfl⟩
    refine wlp_bind (wlp_mono ((steady psk script).keeps_continueOperation u) fun go v huv =>
      wlp_ite (fun _ => wlp_pure ⟨hsu.trans huv, nofun⟩) fun _ => ?_)
    have hsv := hsu.trans huv
    refine wlp_bind (wlp_mono (command_asks (c := .listNetworks request) rfl _)
      fun output x ⟨hvx, hlist⟩ => ?_)
    have hsx := hsv.trans hvx
    cases output with
    | none => exact wlp_pure ⟨hsx, nofun⟩
    | some output =>
      dsimp only
      cases hpage : capturePage output backup lastId with
      | none => exact wlp_pure ⟨hsx, nofun⟩
      | some read =>
        obtain ⟨next, lastId'⟩ := read
        obtain rfl | ⟨turn, hcarry⟩ := hlist output rfl
        · rw [capturePage_fail] at hpage
          contradiction
        rw [hsv.1] at hcarry
        obtain rfl : output = s.device.host.saved.page s.device.host.current turn.temporary
          request := (Prod.ext_iff.mp (Option.some.inj hcarry)).2.symm
        obtain ⟨front, rest, hfront, hbehind, hnetworks, hcompleted, hid⟩ := hreading
        obtain ⟨taken, left, htaken, hnext, hlast, hcompleted', hid', hfirst, hshort⟩ :=
          capturePage_page hpage
        dsimp only at hbehind hnetworks hcompleted hid
        have hrest : rest = taken ++ left := hbehind.symm.trans htaken
        have hall : s.device.host.saved.list = front ++ (taken ++ left) := hrest ▸ hfront
        have hread : next.networks = (front ++ taken).map Profile.saved := by
          rw [hnext, hnetworks, List.map_append]
        have hkept : 0 ≤ start.previousId → next.previousId = start.previousId := fun h =>
          (hid' (hid h ▸ h)).trans (hid h)
        refine wlp_ite (fun hdone => wlp_pure ⟨hsx, ?_⟩) fun hmore => wlp_pure ⟨hsx, ?_⟩
        · rintro _ ⟨⟩
          have hleft : left = [] := by
            rcases hdone with hsame | hroom
            · have hlength := congrArg List.length hnext
              rw [List.length_append, List.length_map, hsame] at hlength
              exact hfirst (List.length_eq_zero_iff.mp (by omega))
            · exact hshort hroom
          refine ⟨by rw [hread, hall, hleft, List.append_nil], fun h => ?_⟩
          obtain ⟨hcurrent, hnonneg⟩ := hprevious (hcompleted ▸ hcompleted' ▸ h)
          rw [hkept hnonneg]
          exact ⟨hcurrent, hnonneg⟩
        · have hne : taken ≠ [] := by
            rintro rfl
            exact hmore (.inl (by simp [hnext]))
          refine ⟨front ++ taken, left, by rw [hall, List.append_assoc], ?_, hread,
            hcompleted'.trans hcompleted, hkept⟩
          have hordered := s.device.host.saved.ordered
          rw [hall] at hordered
          rw [hlast, hall]
          exact filter_behind hordered hne lastId

end

end C1auncher.Wifi.Listing
