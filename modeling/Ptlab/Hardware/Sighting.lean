/-
Which watch an advertisement of a soak is counted for.

`run_soak` refuses two equal endpoints, and `observe_pair` two adapters. The
callback `detected` then counts an advertisement for every endpoint that it fits:
an address is compared without regard to case, and a name with the local name of
the advertisement and with the name of the device. Two endpoints that are not
equal may so fit one advertisement, and then one device is both watches. That
they never do is `twoDevices_iff`: two addresses are needed, and they have to be
different still after `casefold`.
-/
import Ptlab.Hardware.Settled

set_option autoImplicit false

open Effect

namespace Ptlab.Hardware

variable {py : Builtins} {candidate baseline : BleEndpoint}

/-! ## What fits an endpoint -/

/-- Two endpoints that are given by addresses, which differ in more than case. -/
structure AddressedApart (py : Builtins) (candidate baseline : BleEndpoint) : Prop where
  candidate_addressed : truthy candidate.address = true
  baseline_addressed : truthy baseline.address = true
  apart : py.casefold (candidate.address.getD "") ≠ py.casefold (baseline.address.getD "")

theorem getD_of_truthy {text : Option String} (h : truthy text = true) (other : String) :
    text.getD other = text.getD "" := by
  cases text with
  | none => simp [truthy] at h
  | some s => rfl

/-- An endpoint that has an address is not looked for by name. -/
theorem detects_addressed {endpoint : BleEndpoint} (h : truthy endpoint.address = true)
    (advertisement : Advertisement) :
    detects py endpoint advertisement = true ↔
      py.casefold (advertisement.device.address.getD "None") =
        py.casefold (endpoint.address.getD "") := by
  have hname : truthy endpoint.name = false := by
    have hone := endpoint.exactly_one
    rw [h] at hone
    simpa using hone.symm
  simp [detects, h, hname]

/-- An endpoint that has none is looked for by name. -/
theorem detects_named {endpoint : BleEndpoint} (h : truthy endpoint.address = false)
    (advertisement : Advertisement) :
    detects py endpoint advertisement = true ↔
      endpoint.name = advertisement.local_name ∨ endpoint.name = advertisement.device.name := by
  have hname : truthy endpoint.name = true := by
    have hone := endpoint.exactly_one
    rw [h] at hone
    simpa using hone.symm
  simp [detects, h, hname]

/-- What a device reports that fits both endpoints, if there is anything that does:
the address that is asked for, and a name for each. -/
def commonAdvertisement (candidate baseline : BleEndpoint) : Advertisement where
  device :=
    { address := if truthy candidate.address then candidate.address else baseline.address
      name := baseline.name }
  local_name := candidate.name

theorem detects_common_candidate :
    detects py candidate (commonAdvertisement candidate baseline) = true := by
  by_cases h : truthy candidate.address = true
  · rw [detects_addressed h]
    simp only [commonAdvertisement, h, if_true]
    rw [getD_of_truthy h]
  · rw [detects_named (by simpa using h)]
    exact Or.inl rfl

theorem detects_common_baseline (h : ¬ AddressedApart py candidate baseline) :
    detects py baseline (commonAdvertisement candidate baseline) = true := by
  by_cases hbaseline : truthy baseline.address = true
  · rw [detects_addressed hbaseline]
    by_cases hcandidate : truthy candidate.address = true
    -- two addresses: they are equal but for case
    · have hsame : py.casefold (candidate.address.getD "") =
          py.casefold (baseline.address.getD "") := by
        by_contra hne
        exact h ⟨hcandidate, hbaseline, hne⟩
      simp only [commonAdvertisement, hcandidate, if_true]
      rw [getD_of_truthy hcandidate, hsame]
    -- a name and an address: a device may have both
    · simp only [commonAdvertisement, hcandidate, if_false, Bool.false_eq_true]
      rw [getD_of_truthy hbaseline]
  · rw [detects_named (by simpa using hbaseline)]
    exact Or.inr rfl

/-- **No advertisement fits both endpoints** iff two addresses keep them apart. -/
theorem never_both_iff :
    (∀ advertisement, ¬ (detects py candidate advertisement = true ∧
      detects py baseline advertisement = true)) ↔ AddressedApart py candidate baseline := by
  constructor
  · intro h
    by_contra hnot
    exact h _ ⟨detects_common_candidate, detects_common_baseline hnot⟩
  · rintro hapart advertisement ⟨hcandidate, hbaseline⟩
    rw [detects_addressed hapart.candidate_addressed] at hcandidate
    rw [detects_addressed hapart.baseline_addressed] at hbaseline
    exact hapart.apart (hcandidate.symm.trans hbaseline)

/-! ## What a window finds -/

/-- `found` at the end of a window. -/
def sightings (py : Builtins) (candidate baseline : BleEndpoint)
    (advertisements : List Advertisement) : Found :=
  advertisements.foldl (detected py candidate baseline) ⟨none, none⟩

/-- The device that was counted for an endpoint last. -/
def lastSighting (py : Builtins) (endpoint : BleEndpoint) (advertisements : List Advertisement)
    (entry : Option Device) : Option Device :=
  advertisements.foldl (fun entry advertisement =>
    if detects py endpoint advertisement then some advertisement.device else entry) entry

/-- The two entries of `found` have nothing to do with one another. -/
theorem foldl_detected (advertisements : List Advertisement) (found : Found) :
    advertisements.foldl (detected py candidate baseline) found =
      ⟨lastSighting py candidate advertisements found.candidate,
        lastSighting py baseline advertisements found.baseline⟩ := by
  induction advertisements generalizing found with
  | nil => rfl
  | cons advertisement advertisements ih =>
      rw [List.foldl_cons, ih]
      rfl

theorem lastSighting_some {endpoint : BleEndpoint} {device : Device}
    {advertisements : List Advertisement} : ∀ {entry : Option Device},
    lastSighting py endpoint advertisements entry = some device →
      entry = some device ∨ ∃ advertisement ∈ advertisements,
        detects py endpoint advertisement = true ∧ advertisement.device = device := by
  induction advertisements with
  | nil => exact fun h => Or.inl h
  | cons advertisement advertisements ih =>
      intro entry h
      unfold lastSighting at h
      rw [List.foldl_cons] at h
      rcases ih h with hentry | ⟨a, ha, hdetects, hdevice⟩
      · split_ifs at hentry with hdetects
        · exact Or.inr ⟨advertisement, List.mem_cons_self, hdetects, Option.some.inj hentry⟩
        · exact Or.inl hentry
      · exact Or.inr ⟨a, List.mem_cons_of_mem _ ha, hdetects, hdevice⟩

/-- The address of a device that was found for an endpoint with an address. -/
theorem lastSighting_address {endpoint : BleEndpoint} (h : truthy endpoint.address = true)
    {advertisements : List Advertisement} {device : Device}
    (hlast : lastSighting py endpoint advertisements none = some device) :
    py.casefold (device.address.getD "None") = py.casefold (endpoint.address.getD "") := by
  rcases lastSighting_some hlast with hnone | ⟨advertisement, -, hdetects, rfl⟩
  · cases hnone
  · exact (detects_addressed h advertisement).mp hdetects

/-- **Two visible watches are two devices**, where two addresses keep them apart. -/
theorem AddressedApart.sightings (h : AddressedApart py candidate baseline)
    {advertisements : List Advertisement} {device device' : Device}
    (hcandidate : (sightings py candidate baseline advertisements).candidate = some device)
    (hbaseline : (sightings py candidate baseline advertisements).baseline = some device') :
    device.address ≠ device'.address := by
  unfold Hardware.sightings at hcandidate hbaseline
  rw [foldl_detected] at hcandidate hbaseline
  have hfirst := lastSighting_address h.candidate_addressed hcandidate
  have hsecond := lastSighting_address h.baseline_addressed hbaseline
  intro hsame
  rw [hsame] at hfirst
  exact h.apart (hfirst.symm.trans hsecond)

/-! ## What a soak reports

The samples of both watches are those of the windows so far, in their order. While
a round is at work they are one window behind the scanner.
-/

/-- What the scanner reported in a window. -/
def SoakEvent.window : SoakEvent → Option (List Advertisement)
  | .scan _ _ (.ok advertisements) => some advertisements
  | _ => none

/-- The windows of a soak. -/
def windows (log : List SoakEvent) : List (List Advertisement) := log.filterMap SoakEvent.window

/-- The samples of both watches from one window. -/
def samplesOf (py : Builtins) (candidate baseline : BleEndpoint)
    (advertisements : List Advertisement) : Sample × Sample :=
  (sampleOf candidate (sightings py candidate baseline advertisements).candidate,
    sampleOf baseline (sightings py candidate baseline advertisements).baseline)

/-- The samples of a result are those of these windows. -/
def SoakResult.Traced (py : Builtins) (candidate baseline : BleEndpoint)
    (scanned : List (List Advertisement)) (result : SoakResult) : Prop :=
  result.candidate.advertising_samples =
      (scanned.map (samplesOf py candidate baseline)).map Prod.fst ∧
    result.baseline.advertising_samples =
      (scanned.map (samplesOf py candidate baseline)).map Prod.snd

/-- What was handed out has the samples of the first windows of the log. -/
def HandedTraced (py : Builtins) (candidate baseline : BleEndpoint) (log : List SoakEvent) :
    Prop :=
  ∀ result ∈ log.filterMap SoakEvent.handed, ∃ scanned, scanned <+: windows log ∧
    result.Traced py candidate baseline scanned

/-- What a soak keeps: its result has the samples of all windows, of which there are
none where the adapters are not the same. -/
structure UpToDate (py : Builtins) (candidate baseline : BleEndpoint)
    (s : SoakResult × List SoakEvent) : Prop where
  traced : s.1.Traced py candidate baseline (windows s.2)
  handed : HandedTraced py candidate baseline s.2
  adapter : windows s.2 ≠ [] → candidate.adapter = baseline.adapter

/-- What holds between the window of a round and its samples. -/
structure Behind (py : Builtins) (candidate baseline : BleEndpoint)
    (advertisements : List Advertisement) (s : SoakResult × List SoakEvent) : Prop where
  traced : ∃ scanned, windows s.2 = scanned ++ [advertisements] ∧
    s.1.Traced py candidate baseline scanned
  handed : HandedTraced py candidate baseline s.2

theorem windows_append (log : List SoakEvent) (event : SoakEvent) :
    windows (log ++ [event]) = windows log ++ event.window.toList := by
  unfold windows
  rw [List.filterMap_append]
  cases h : event.window <;> simp [h]

theorem HandedTraced.append {log : List SoakEvent} (h : HandedTraced py candidate baseline log)
    {event : SoakEvent} (hevent : event.handed = none) :
    HandedTraced py candidate baseline (log ++ [event]) := by
  intro result hresult
  rw [List.filterMap_append, List.filterMap_cons_none hevent, List.filterMap_nil,
    List.append_nil] at hresult
  obtain ⟨scanned, hupto, htraced⟩ := h result hresult
  refine ⟨scanned, hupto.trans ?_, htraced⟩
  rw [windows_append]
  exact List.prefix_append ..

/-- A round's samples bring the result up to date. -/
theorem SoakResult.Traced.push {scanned : List (List Advertisement)} {result : SoakResult}
    (h : result.Traced py candidate baseline scanned) (advertisements : List Advertisement) :
    ((result.onCandidate fun record => record.push
        (samplesOf py candidate baseline advertisements).1).onBaseline fun record => record.push
        (samplesOf py candidate baseline advertisements).2).Traced py candidate baseline
      (scanned ++ [advertisements]) := by
  unfold SoakResult.Traced
  rw [List.map_append, List.map_append, List.map_append]
  exact ⟨congrArg (· ++ [_]) h.1, congrArg (· ++ [_]) h.2⟩

section Run

variable {bench : SoakBench} {duration interval scan_window : ℚ}

/-- What a computation of the soak keeps, however it ends. -/
abbrev KeepsReport {α : Type} (py : Builtins) (candidate baseline : BleEndpoint) (m : Soak α) :
    Prop := Always (UpToDate py candidate baseline) m

theorem report_ask {α : Type} {reply : List SoakEvent → Except PyExc α}
    {event : Except PyExc α → SoakEvent} (hhanded : ∀ r, (event r).handed = none)
    (hwindow : ∀ r, (event r).window = none) :
    KeepsReport py candidate baseline (outside (ask reply event)) := by
  rintro ⟨result, log⟩ hs
  have hsame : windows (log ++ [event (reply log)]) = windows log := by
    rw [windows_append, hwindow]
    exact List.append_nil _
  have hnext : UpToDate py candidate baseline (result, log ++ [event (reply log)]) :=
    ⟨hsame.symm ▸ hs.traced, hs.handed.append (hhanded _), hsame.symm ▸ hs.adapter⟩
  rw [exec_outside, exec_ask]
  rcases hreply : reply log with error | a <;> rw [hreply] at hnext <;> exact hnext

/-- A window puts the result one behind, and a scanner that fails does not. -/
theorem report_scan (hadapter : candidate.adapter = baseline.adapter) :
    Triple (UpToDate py candidate baseline)
      (outside (ask (fun log => bench.scan log candidate.adapter scan_window)
        (.scan candidate.adapter scan_window)) : Soak (List Advertisement))
      (Behind py candidate baseline) (fun _ => UpToDate py candidate baseline) := by
  rintro ⟨result, log⟩ hs
  rw [exec_outside, exec_ask]
  rcases bench.scan log candidate.adapter scan_window with error | advertisements
  · refine ⟨?_, hs.handed.append rfl, fun _ => hadapter⟩
    rw [windows_append]
    simpa [SoakEvent.window] using hs.traced
  · refine ⟨⟨windows log, ?_, hs.traced⟩, hs.handed.append rfl⟩
    rw [windows_append]
    rfl

/-- The battery and the status have no part in it. -/
theorem report_assign {f : SoakResult → SoakResult}
    (hcandidate : ∀ result : SoakResult,
      (f result).candidate.advertising_samples = result.candidate.advertising_samples)
    (hbaseline : ∀ result : SoakResult,
      (f result).baseline.advertising_samples = result.baseline.advertising_samples) :
    KeepsReport py candidate baseline (assign f) := by
  refine triple_update fun s hs => ⟨?_, hs.handed, hs.adapter⟩
  exact ⟨(hcandidate s.1).trans hs.traced.1, (hbaseline s.1).trans hs.traced.2⟩

theorem report_save : KeepsReport py candidate baseline (save bench) := by
  rintro ⟨result, log⟩ hs
  unfold save
  rw [exec_bind, exec_read]
  cases bench.checkpoint with
  | none => exact hs
  | some callback =>
      have hnext : UpToDate py candidate baseline
          (result, log ++ [.checkpoint result (callback log result)]) := by
        -- a checkpoint is no window
        have hsame : windows (log ++ [.checkpoint result (callback log result)]) = windows log := by
          rw [windows_append]
          exact List.append_nil _
        refine ⟨hsame.symm ▸ hs.traced, fun before hbefore => ?_, hsame.symm ▸ hs.adapter⟩
        rw [hsame]
        rw [handed_append_checkpoint] at hbefore
        rcases List.mem_append.mp hbefore with hbefore | hbefore
        · exact hs.handed before hbefore
        · rw [List.mem_singleton.mp hbefore]
          exact ⟨windows log, List.prefix_rfl, hs.traced⟩
      dsimp only
      rw [exec_outside, exec_ask]
      rcases hreply : callback log result with error | ⟨⟩ <;> rw [hreply] at hnext <;> exact hnext

/-- The samples of the window are what the result was behind by. -/
theorem report_sampled (hadapter : candidate.adapter = baseline.adapter)
    (advertisements : List Advertisement) :
    Triple (Behind py candidate baseline advertisements)
      (sampled bench (samplesOf py candidate baseline advertisements).1
        (samplesOf py candidate baseline advertisements).2)
      (fun _ => UpToDate py candidate baseline) (fun _ => UpToDate py candidate baseline) := by
  unfold sampled
  -- after the first assignment, only the candidate has its sample
  refine triple_bind (triple_update (R := fun s => ∃ result,
    Behind py candidate baseline advertisements (result, s.2) ∧
      s.1 = result.onCandidate fun record => record.push
        (samplesOf py candidate baseline advertisements).1)
    fun s hs => ⟨s.1, hs, rfl⟩) fun _ => ?_
  refine triple_bind (triple_update (R := UpToDate py candidate baseline) ?_) fun _ => report_save
  rintro ⟨_, log⟩ ⟨result, hbehind, rfl⟩
  obtain ⟨scanned, hwindows, htraced⟩ := hbehind.traced
  refine ⟨?_, hbehind.handed, fun _ => hadapter⟩
  have hpush := htraced.push advertisements
  rw [← hwindows] at hpush
  exact hpush

theorem report_steps : SoakSteps py bench candidate baseline scan_window
    (UpToDate py candidate baseline) (Behind py candidate baseline)
    (fun _ => UpToDate py candidate baseline) where
  battery := fun _ => report_ask (fun _ => rfl) fun _ => rfl
  clock := report_ask (fun _ => rfl) fun _ => rfl
  scan := report_scan
  sampled := report_sampled
  sleep := fun _ => report_ask (fun _ => rfl) fun _ => rfl
  save := report_save
  candidate := fun _ hf => report_assign (fun result => hf result.candidate) fun _ => rfl
  baseline := fun _ hf => report_assign (fun _ => rfl) fun result => hf result.baseline
  refused := fun _ _ _ hs => hs

/-- The handler raises in every case. -/
theorem report_soakHandler (error : PyExc) {Q : Option SoakResult → SoakResult × List SoakEvent →
    Prop} : Triple (UpToDate py candidate baseline) (soakHandler bench error) Q
      (fun _ => UpToDate py candidate baseline) := by
  unfold soakHandler
  split
  · exact triple_throw fun s hs => hs
  · refine triple_bind (report_assign (fun _ => rfl) fun _ => rfl) fun _ => ?_
    exact triple_bind report_save fun _ => triple_throw fun s hs => hs

/-- The endpoints pass the checks of `run_soak` and of `observe_pair`. -/
structure AcceptedPair (candidate baseline : BleEndpoint) : Prop where
  differ : candidate ≠ baseline
  adapter : candidate.adapter = baseline.adapter

/-- What the dealings of a soak are like: no window but for a pair that is accepted. -/
structure SoakTraced (py : Builtins) (candidate baseline : BleEndpoint) (log : List SoakEvent) :
    Prop where
  handed : HandedTraced py candidate baseline log
  accepted : windows log ≠ [] → AcceptedPair candidate baseline

/-- **A soak reports what its windows found**, to the checkpoint and at its end. -/
theorem run_soak_traced (fuel : ℕ) :
    Triple (fun log : List SoakEvent => log = [])
      (run_soak py bench candidate baseline duration interval scan_window fuel)
      (fun returned log => SoakTraced py candidate baseline log ∧
        ∀ result, returned = some result → result.Traced py candidate baseline (windows log))
      (fun _ => SoakTraced py candidate baseline) := by
  unfold run_soak
  split_ifs with hdiffer
  · refine triple_throw ?_
    rintro _ rfl
    exact ⟨fun result h => (by cases h), fun h => absurd rfl h⟩
  · -- what holds of the result in memory is forgotten with it, and that of the log stays
    have htraced : ∀ s, UpToDate py candidate baseline s → SoakTraced py candidate baseline s.2 :=
      fun s hs => ⟨hs.handed, fun h => ⟨hdiffer, hs.adapter h⟩⟩
    refine triple_withLocal
      (R := fun returned s => UpToDate py candidate baseline s ∧ ∀ result,
        returned = some result → result = s.1)
      (F := fun _ => UpToDate py candidate baseline) ?_ ?_ fun _ => htraced
    · refine triple_bind (report_save.conseq ?_ (fun _ _ hs => hs) fun _ _ hs => hs) fun _ => ?_
      · rintro ⟨_, log⟩ ⟨rfl, rfl⟩
        exact ⟨⟨rfl, rfl⟩, fun result h => (by cases h), fun h => absurd rfl h⟩
      · refine triple_tryCatch ?_ fun error => report_soakHandler error
        refine (report_steps.soakBody (report_assign (fun _ => rfl) fun _ => rfl) report_save
          fuel).conseq (fun _ hs => hs) ?_ fun _ _ hs => hs
        rintro returned s (⟨rfl, hs⟩ | ⟨rfl, hs⟩)
        · exact ⟨hs, fun result h => by cases h⟩
        · exact ⟨hs, fun result h => (Option.some.inj h).symm⟩
    · rintro returned s ⟨hs, hreturned⟩
      refine ⟨htraced s hs, fun result hresult => ?_⟩
      rw [hreturned result hresult]
      exact hs.traced

end Run

/-! ## One device for one watch -/

/-- The outcome of a soak: what it returned or raised, and its dealings. -/
abbrev SoakOutcome : Type := Except PyExc (Option SoakResult) × List SoakEvent

/-- The result was handed to the checkpoint, or returned. -/
def SoakOutcome.Reports (outcome : SoakOutcome) (result : SoakResult) : Prop :=
  result ∈ outcome.2.filterMap SoakEvent.handed ∨ outcome.1 = .ok (some result)

/-- No advertisement was counted for both watches, and wherever both are reported
visible in one window, they are two devices. -/
structure TwoDevices (py : Builtins) (candidate baseline : BleEndpoint) (outcome : SoakOutcome) :
    Prop where
  once : ∀ advertisements ∈ windows outcome.2, ∀ advertisement ∈ advertisements,
    ¬ (detects py candidate advertisement = true ∧ detects py baseline advertisement = true)
  apart : ∀ result, SoakOutcome.Reports outcome result →
    ∀ samples ∈ result.candidate.advertising_samples.zip result.baseline.advertising_samples,
      samples.1.visible = true → samples.2.visible = true → samples.1.address ≠ samples.2.address

/-- The samples of one window, where two addresses keep the watches apart. -/
theorem AddressedApart.samplesOf (h : AddressedApart py candidate baseline)
    {advertisements : List Advertisement}
    (hcandidate : (samplesOf py candidate baseline advertisements).1.visible = true)
    (hbaseline : (samplesOf py candidate baseline advertisements).2.visible = true) :
    (Hardware.samplesOf py candidate baseline advertisements).1.address ≠
      (Hardware.samplesOf py candidate baseline advertisements).2.address := by
  have hfound := @AddressedApart.sightings py candidate baseline h advertisements
  unfold Hardware.samplesOf at hcandidate hbaseline ⊢
  rcases hfirst : (Hardware.sightings py candidate baseline advertisements).candidate with _ | device
  · rw [hfirst] at hcandidate
    cases hcandidate
  · rcases hsecond : (Hardware.sightings py candidate baseline advertisements).baseline with
      _ | device'
    · rw [hsecond] at hbaseline
      cases hbaseline
    · exact hfound hfirst hsecond

/-- A bench on which each window has these advertisements, and nothing fails. -/
def SoakBench.reporting (advertisements : List Advertisement) : SoakBench where
  installed := true
  read_battery := fun _ _ => .ok 0
  monotonic := fun _ => 0
  scan := fun _ _ _ => .ok advertisements
  sleep := fun _ _ => .ok ()
  checkpoint := none

/-- On it, the first round has its window, and then the soak is still going on. -/
theorem reporting_rounds (advertisements : List Advertisement) (s : SoakResult × List SoakEvent) :
    ∃ t, (rounds py (.reporting advertisements) candidate baseline 1 1 (0 + 1) 1).exec s =
      (.ok none, t) ∧ advertisements ∈ windows t.2 := by
  have hdeadline : ¬ ((0 : ℚ) ≥ 0 + 1) := by norm_num
  unfold rounds
  simp only [monotonic, SoakBench.reporting, sampled, save, assign, exec_bind, exec_outside,
    exec_ask, exec_update, exec_read, exec_pure, if_neg hdeadline]
  -- no round is left
  unfold rounds
  rw [exec_pure]
  refine ⟨_, rfl, ?_⟩
  simp [windows, SoakEvent.window]

theorem reporting_pair (h : AcceptedPair candidate baseline)
    (advertisements : List Advertisement) :
    Triple (fun _ => True)
      (observe_pair py (.reporting advertisements) candidate baseline 1 1 1 1)
      (fun observed s => observed = none ∧ advertisements ∈ windows s.2) (fun _ _ => False) := by
  have hpositive : ¬ ((1 : ℚ) ≤ 0 ∨ (1 : ℚ) ≤ 0 ∨ (1 : ℚ) ≤ 0) := by norm_num
  have hwindow : ¬ ((1 : ℚ) > 1) := by norm_num
  have hinstalled : ¬ (!(SoakBench.reporting advertisements).installed) = true := by
    simp [SoakBench.reporting]
  intro s _
  have hstart : (monotonic (.reporting advertisements)).exec s =
      (.ok 0, (s.1, s.2 ++ [SoakEvent.monotonic (.ok 0)])) := rfl
  obtain ⟨t, hrounds, hmem⟩ := reporting_rounds advertisements
    (s.1, s.2 ++ [SoakEvent.monotonic (.ok 0)])
  unfold observe_pair
  rw [if_neg hpositive, if_neg hwindow, if_neg (not_not.mpr h.adapter), if_neg hinstalled,
    exec_bind, hstart]
  dsimp only
  rw [hrounds]
  exact ⟨rfl, hmem⟩

/-- So the window of an accepted pair may have any advertisements. -/
theorem reporting_window (h : AcceptedPair candidate baseline)
    (advertisements : List Advertisement) :
    advertisements ∈ windows ((run_soak py (.reporting advertisements) candidate baseline 1 1 1
      1).exec []).2 := by
  have hbody : Triple (fun _ => True)
      (soakBody py (.reporting advertisements) candidate baseline 1 1 1 1)
      (fun _ s => advertisements ∈ windows s.2) (fun _ _ => False) := by
    unfold soakBody
    refine triple_bind (Q := fun _ _ => True) (fun _ _ => trivial) fun percent => ?_
    refine triple_bind (Q := fun _ _ => True) (fun _ _ => trivial) fun _ => ?_
    refine triple_bind (Q := fun _ _ => True) (fun _ _ => trivial) fun percent' => ?_
    refine triple_bind (Q := fun _ _ => True) (fun _ _ => trivial) fun _ => ?_
    refine triple_bind (Q := fun _ _ => True) (fun _ _ => trivial) fun _ => ?_
    refine triple_bind (reporting_pair h advertisements) fun observed => ?_
    rintro s ⟨rfl, hmem⟩
    exact hmem
  have hrun : Triple (fun _ => True)
      (run_soak py (.reporting advertisements) candidate baseline 1 1 1 1)
      (fun _ log => advertisements ∈ windows log) (fun _ _ => False) := by
    unfold run_soak
    rw [if_neg h.differ]
    refine triple_withLocal (R := fun _ s => advertisements ∈ windows s.2) (F := fun _ _ => False)
      ?_ (fun _ _ hs => hs) fun _ _ hs => hs
    refine triple_bind (Q := fun _ _ => True) (fun _ _ => trivial) fun _ => ?_
    exact triple_tryCatch hbody fun error s hs => hs.elim
  exact hrun.final trivial (fun _ _ hs => hs) fun _ _ hs => hs.elim

/-! ## The condition -/

/-- **No soak takes one device for both watches** iff the pair is refused, or given by
two addresses that are different after `casefold`. -/
theorem twoDevices_iff (py : Builtins) (candidate baseline : BleEndpoint) :
    (∀ (bench : SoakBench) (duration interval scan_window : ℚ) (fuel : ℕ),
      TwoDevices py candidate baseline
        ((run_soak py bench candidate baseline duration interval scan_window fuel).exec [])) ↔
      (AcceptedPair candidate baseline → AddressedApart py candidate baseline) := by
  constructor
  · intro h haccepted
    by_contra hnot
    have htwo := h (.reporting [commonAdvertisement candidate baseline]) 1 1 1 1
    exact htwo.once _ (reporting_window haccepted _) _ (List.mem_singleton.mpr rfl)
      ⟨detects_common_candidate, detects_common_baseline hnot⟩
  · intro h bench duration interval scan_window fuel
    have hrun := @run_soak_traced py candidate baseline bench duration interval scan_window fuel
    have htraced : SoakTraced py candidate baseline
        ((run_soak py bench candidate baseline duration interval scan_window fuel).exec []).2 :=
      hrun.final rfl (fun _ _ hs => hs.1) fun _ _ hs => hs
    -- a window there is only for a pair that is accepted
    have hapart : ∀ advertisements ∈ windows ((run_soak py bench candidate baseline duration
        interval scan_window fuel).exec []).2, AddressedApart py candidate baseline :=
      fun advertisements hmem => h (htraced.accepted (List.ne_nil_of_mem hmem))
    refine ⟨fun advertisements hmem advertisement _ => ?_, fun result hresult samples hsamples => ?_⟩
    · exact never_both_iff.mpr (hapart advertisements hmem) advertisement
    · have hscanned : ∃ scanned, scanned <+: windows ((run_soak py bench candidate baseline
          duration interval scan_window fuel).exec []).2 ∧
          result.Traced py candidate baseline scanned := by
        rcases hresult with hhanded | hreturned
        · exact htraced.handed result hhanded
        · have hok := hrun.of_ok rfl (Prod.ext hreturned rfl)
          exact ⟨_, List.prefix_rfl, hok.2 result rfl⟩
      obtain ⟨scanned, hupto, hcandidate, hbaseline⟩ := hscanned
      rw [hcandidate, hbaseline, List.zip_map', List.mem_map] at hsamples
      obtain ⟨both, hboth, rfl⟩ := hsamples
      obtain ⟨advertisements, hmem, rfl⟩ := List.mem_map.mp hboth
      exact (hapart advertisements (hupto.subset hmem)).samplesOf

/-- A folding of case for the letters that an address has. -/
def lowerCase : Builtins where
  repr := id
  casefold := fun text => String.ofList (text.toList.map Char.toLower)
  lower := id
  general := fun _ => ""

def upperEndpoint : BleEndpoint := ⟨some "AA:BB:CC:DD:EE:01", none, none, by decide⟩

def lowerEndpoint : BleEndpoint := ⟨some "aa:bb:cc:dd:ee:01", none, none, by decide⟩

/-- One watch, with its address in two spellings: the pair is accepted, and the watch
is counted for both. -/
theorem one_watch_for_two :
    AcceptedPair upperEndpoint lowerEndpoint ∧
      ¬ TwoDevices lowerCase upperEndpoint lowerEndpoint
        ((run_soak lowerCase
          (.reporting [⟨⟨some "AA:BB:CC:DD:EE:01", some "InfiniTime"⟩, some "InfiniTime"⟩])
          upperEndpoint lowerEndpoint 1 1 1 1).exec []) := by
  have haccepted : AcceptedPair upperEndpoint lowerEndpoint := ⟨by decide, rfl⟩
  refine ⟨haccepted, fun htwo => ?_⟩
  have hwindow := @reporting_window lowerCase _ _ haccepted
    [⟨⟨some "AA:BB:CC:DD:EE:01", some "InfiniTime"⟩, some "InfiniTime"⟩]
  exact htwo.once _ hwindow _ (List.mem_singleton.mpr rfl) ⟨by decide +kernel, by decide +kernel⟩

end Ptlab.Hardware
