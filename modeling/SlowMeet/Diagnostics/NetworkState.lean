import Mathlib.Data.List.Induction
import Mathlib.Tactic.Linarith
import Mathlib.Tactic.NormNum
import SlowMeet.Diagnostics.Report

/-!
# What the server makes of a connection report

The samples a `network_state` message stands for, as doubles of the report's
entries and not from the loop over them, and what of them arrives. Every field
but one is rounded by the browser; the round-trip time is sent as a fraction of
a millisecond, which does not decode.
-/

namespace SlowMeet.Diagnostics

open Lib FloatFormat

/-! ## The samples -/

/-- The jitter of the last video entry that has one, else of the first audio
entry, in milliseconds. -/
def sampledJitter (report : List Stat) : Option ℚ :=
  (((report.filter (·.isRTP "inbound-rtp" "video")).filterMap (·.jitter)).getLast?.or
    ((report.filter (·.isRTP "inbound-rtp" "audio")).filterMap (·.jitter)).head?).map
      fun seconds => double (seconds * 1000)

/-- What the packet counters of the incoming media gained. -/
def sampledDeltas (report : List Stat) (previous : Option PreviousStats) : List PacketCounters :=
  (report.filter fun stat =>
    stat.isRTP "inbound-rtp" "video" || stat.isRTP "inbound-rtp" "audio").filterMap
      (·.deltas previous)

/-- The share of packets lost, in tenths of a percent. -/
def sampledLoss (report : List Stat) (previous : Option PreviousStats) : Option ℚ :=
  let lost := binary64.sum ((sampledDeltas report previous).map (·.lost))
  let received := binary64.sum ((sampledDeltas report previous).map (·.received))
  let total := double (lost + received)
  if total = 0 then none else some (double (double (lost / total) * 100) * 10)

/-- The rate at which media of this kind was sent. A counter that went back
counts as no rate. -/
def sampledKbps (kind : String) (previousBytes : PreviousStats → ℚ) (report : List Stat)
    (previous : Option PreviousStats) : Option ℚ :=
  previous.bind fun previous =>
    let bytes :=
      binary64.sum ((report.filter (·.isRTP "outbound-rtp" kind)).map (·.bytesSent.getD 0))
    let timestamp := (report.map (·.timestamp.getD 0)).foldl max 0
    if previous.timestamp < timestamp then
      some (max 0 (kbps bytes (previousBytes previous) timestamp previous.timestamp))
    else none

def sampledVideoKbps : List Stat → Option PreviousStats → Option ℚ := sampledKbps "video" (·.sentBytes)

def sampledAudioKbps : List Stat → Option PreviousStats → Option ℚ :=
  sampledKbps "audio" (·.sentAudioBytes)

/-- A sample in the unit of its field. -/
def rounded (sample : Option ℚ) : ℤ := (sample.map round).getD (-1)

/-- What reports may contain. -/
structure InRange (report : List Stat) (previous : Option PreviousStats) : Prop where
  rtt : ∀ stat ∈ report, ∀ seconds, stat.currentRoundTripTime = some seconds →
    0 ≤ seconds ∧ seconds ≤ 120
  jitter : ∀ stat ∈ report, ∀ seconds, stat.jitter = some seconds → 0 ≤ seconds ∧ seconds ≤ 120
  video : ∀ rate, sampledVideoKbps report previous = some rate → rate < 2 ^ 31
  audio : ∀ rate, sampledAudioKbps report previous = some rate → rate < 2 ^ 31

/-- The message decodes, is valid, and carries the samples. -/
def Reported (localParticipantID : String) (report : List Stat) (previous : Option PreviousStats) :
    Prop :=
  ∃ m, decodeMessage (networkState localParticipantID (values report previous)) = some m ∧
    m.validate = none ∧ m.participantID = localParticipantID ∧
    m.rttMs = rounded (selectedCandidatePairRTT report) ∧
    m.packetLoss10 = rounded (sampledLoss report previous) ∧
    m.jitterMs = rounded (sampledJitter report) ∧
    m.videoKbps = rounded (sampledVideoKbps report previous) ∧
    m.audioKbps = rounded (sampledAudioKbps report previous)

/-- The selected pair's round-trip time, if it has one, comes to a whole number
of milliseconds. -/
def WholeRTT (report : List Stat) : Prop :=
  ∀ pair seconds, selectedCandidatePair report = some pair →
    pair.currentRoundTripTime = some seconds → ∃ n : ℤ, double (seconds * 1000) = n

variable {report : List Stat} {previous : Option PreviousStats} {localParticipantID : String}

/-! ## One entry -/

theorem isRTP_eq_false {stat : Stat} {type kind : String} (h : stat.isRTP type kind = true)
    (type' kind' : String) (hne : type ≠ type' ∨ kind ≠ kind') :
    stat.isRTP type' kind' = false := by
  simp only [Stat.isRTP, Bool.and_eq_true, decide_eq_true_eq] at h
  simp only [Stat.isRTP, h.1, h.2, Option.some.injEq, Bool.and_eq_false_iff, decide_eq_false_iff_not]
  exact hne

/-- An entry is one of media sent or received of one kind, or none of these. -/
theorem isRTP_cases (stat : Stat) :
    (stat.isRTP "outbound-rtp" "video" = true ∧ stat.isRTP "outbound-rtp" "audio" = false ∧
      stat.isRTP "inbound-rtp" "video" = false ∧ stat.isRTP "inbound-rtp" "audio" = false) ∨
    (stat.isRTP "outbound-rtp" "video" = false ∧ stat.isRTP "outbound-rtp" "audio" = true ∧
      stat.isRTP "inbound-rtp" "video" = false ∧ stat.isRTP "inbound-rtp" "audio" = false) ∨
    (stat.isRTP "outbound-rtp" "video" = false ∧ stat.isRTP "outbound-rtp" "audio" = false ∧
      stat.isRTP "inbound-rtp" "video" = true ∧ stat.isRTP "inbound-rtp" "audio" = false) ∨
    (stat.isRTP "outbound-rtp" "video" = false ∧ stat.isRTP "outbound-rtp" "audio" = false ∧
      stat.isRTP "inbound-rtp" "video" = false ∧ stat.isRTP "inbound-rtp" "audio" = true) ∨
    (stat.isRTP "outbound-rtp" "video" = false ∧ stat.isRTP "outbound-rtp" "audio" = false ∧
      stat.isRTP "inbound-rtp" "video" = false ∧ stat.isRTP "inbound-rtp" "audio" = false) := by
  cases hov : stat.isRTP "outbound-rtp" "video" with
  | true =>
    exact .inl ⟨rfl, isRTP_eq_false hov _ _ (by decide), isRTP_eq_false hov _ _ (by decide),
      isRTP_eq_false hov _ _ (by decide)⟩
  | false =>
    cases hoa : stat.isRTP "outbound-rtp" "audio" with
    | true =>
      exact .inr (.inl ⟨rfl, rfl, isRTP_eq_false hoa _ _ (by decide),
        isRTP_eq_false hoa _ _ (by decide)⟩)
    | false =>
      cases hiv : stat.isRTP "inbound-rtp" "video" with
      | true =>
        exact .inr (.inr (.inl ⟨rfl, rfl, rfl, isRTP_eq_false hiv _ _ (by decide)⟩))
      | false =>
        cases hia : stat.isRTP "inbound-rtp" "audio" with
        | true => exact .inr (.inr (.inr (.inl ⟨rfl, rfl, rfl, rfl⟩)))
        | false => exact .inr (.inr (.inr (.inr ⟨rfl, rfl, rfl, rfl⟩)))

theorem recordPacketCounters_eq (t : Totals) (previous : Option PreviousStats) (stat : Stat) :
    (t.recordPacketCounters previous stat).timestamp = t.timestamp ∧
    (t.recordPacketCounters previous stat).sentBytes = t.sentBytes ∧
    (t.recordPacketCounters previous stat).sentAudioBytes = t.sentAudioBytes ∧
    (t.recordPacketCounters previous stat).jitterMs = t.jitterMs ∧
    (t.recordPacketCounters previous stat).lostPackets =
      ((stat.deltas previous).map fun deltas => double (t.lostPackets + deltas.lost)).getD
        t.lostPackets ∧
    (t.recordPacketCounters previous stat).receivedPackets =
      ((stat.deltas previous).map fun deltas => double (t.receivedPackets + deltas.received)).getD
        t.receivedPackets := by
  unfold Totals.recordPacketCounters
  cases stat.deltas previous <;> cases stat.id <;> simp <;> split <;> simp

/-- An entry that counts incoming packets. -/
def Stat.inbound (stat : Stat) : Bool :=
  stat.isRTP "inbound-rtp" "video" || stat.isRTP "inbound-rtp" "audio"

/-- What one entry adds to the totals. -/
theorem add_eq (t : Totals) (previous : Option PreviousStats) (stat : Stat) :
    (t.add previous stat).timestamp = max t.timestamp (stat.timestamp.getD 0) ∧
    (t.add previous stat).sentBytes =
      (if stat.isRTP "outbound-rtp" "video" then double (t.sentBytes + stat.bytesSent.getD 0)
        else t.sentBytes) ∧
    (t.add previous stat).sentAudioBytes =
      (if stat.isRTP "outbound-rtp" "audio" then double (t.sentAudioBytes + stat.bytesSent.getD 0)
        else t.sentAudioBytes) ∧
    (t.add previous stat).jitterMs =
      (if stat.isRTP "inbound-rtp" "video" then stat.jitterMs.or t.jitterMs
        else if stat.isRTP "inbound-rtp" "audio" then t.jitterMs.or stat.jitterMs
        else t.jitterMs) ∧
    (t.add previous stat).lostPackets =
      (if stat.inbound then
        ((stat.deltas previous).map fun deltas => double (t.lostPackets + deltas.lost)).getD
          t.lostPackets
        else t.lostPackets) ∧
    (t.add previous stat).receivedPackets =
      (if stat.inbound then
        ((stat.deltas previous).map fun deltas => double (t.receivedPackets + deltas.received)).getD
          t.receivedPackets
        else t.receivedPackets) := by
  have hrecord := recordPacketCounters_eq
    { t with timestamp := max t.timestamp (stat.timestamp.getD 0) } previous stat
  obtain ⟨hts, hsent, haudio, hjitter, hlost, hreceived⟩ := hrecord
  unfold Totals.add Stat.inbound
  rcases isRTP_cases stat with ⟨hov, hoa, hiv, hia⟩ | ⟨hov, hoa, hiv, hia⟩ | ⟨hov, hoa, hiv, hia⟩ |
      ⟨hov, hoa, hiv, hia⟩ | ⟨hov, hoa, hiv, hia⟩ <;>
    simp [hov, hoa, hiv, hia, hts, hsent, haudio, hjitter, hlost, hreceived]

/-! ## The totals of a report -/

theorem totals_append (report : List Stat) (previous : Option PreviousStats) (stat : Stat) :
    totals (report ++ [stat]) previous = (totals report previous).add previous stat := by
  simp [totals]

theorem totals_timestamp (report : List Stat) (previous : Option PreviousStats) :
    (totals report previous).timestamp = (report.map (·.timestamp.getD 0)).foldl max 0 := by
  induction report using List.reverseRecOn with
  | nil => rfl
  | append_singleton report stat ih =>
    rw [totals_append, (add_eq _ _ _).1, ih]
    simp

theorem totals_sentBytes (report : List Stat) (previous : Option PreviousStats) :
    (totals report previous).sentBytes =
      binary64.sum ((report.filter (·.isRTP "outbound-rtp" "video")).map (·.bytesSent.getD 0)) := by
  induction report using List.reverseRecOn with
  | nil => rfl
  | append_singleton report stat ih =>
    rw [totals_append, (add_eq _ _ _).2.1, ih]
    cases h : stat.isRTP "outbound-rtp" "video" <;> simp [h, sum_concat]

theorem totals_sentAudioBytes (report : List Stat) (previous : Option PreviousStats) :
    (totals report previous).sentAudioBytes =
      binary64.sum ((report.filter (·.isRTP "outbound-rtp" "audio")).map (·.bytesSent.getD 0)) := by
  induction report using List.reverseRecOn with
  | nil => rfl
  | append_singleton report stat ih =>
    rw [totals_append, (add_eq _ _ _).2.2.1, ih]
    cases h : stat.isRTP "outbound-rtp" "audio" <;> simp [h, sum_concat]

theorem sampledDeltas_append (report : List Stat) (previous : Option PreviousStats) (stat : Stat) :
    sampledDeltas (report ++ [stat]) previous = sampledDeltas report previous ++
      (if stat.inbound then (stat.deltas previous).toList else []) := by
  unfold sampledDeltas
  rw [List.filter_append, List.filterMap_append]
  congr 1
  cases h : stat.inbound <;> cases hd : stat.deltas previous <;>
    simp_all [Stat.inbound]

theorem totals_lostPackets (report : List Stat) (previous : Option PreviousStats) :
    (totals report previous).lostPackets =
      binary64.sum ((sampledDeltas report previous).map (·.lost)) := by
  induction report using List.reverseRecOn with
  | nil => rfl
  | append_singleton report stat ih =>
    rw [totals_append, (add_eq _ _ _).2.2.2.2.1, ih, sampledDeltas_append]
    cases stat.inbound <;> cases stat.deltas previous <;> simp [sum_concat]

theorem totals_receivedPackets (report : List Stat) (previous : Option PreviousStats) :
    (totals report previous).receivedPackets =
      binary64.sum ((sampledDeltas report previous).map (·.received)) := by
  induction report using List.reverseRecOn with
  | nil => rfl
  | append_singleton report stat ih =>
    rw [totals_append, (add_eq _ _ _).2.2.2.2.2, ih, sampledDeltas_append]
    cases stat.inbound <;> cases stat.deltas previous <;> simp [sum_concat]

theorem totals_jitterMs (report : List Stat) (previous : Option PreviousStats) :
    (totals report previous).jitterMs = (sampledJitter report).map round := by
  induction report using List.reverseRecOn with
  | nil => rfl
  | append_singleton report stat ih =>
    rw [totals_append, (add_eq _ _ _).2.2.2.1, ih]
    unfold sampledJitter Stat.jitterMs
    rcases isRTP_cases stat with ⟨-, -, hiv, hia⟩ | ⟨-, -, hiv, hia⟩ | ⟨-, -, hiv, hia⟩ |
      ⟨-, -, hiv, hia⟩ | ⟨-, -, hiv, hia⟩ <;>
    cases hj : stat.jitter <;> simp [hiv, hia, hj, List.filter_append, List.filterMap_append]
    -- the first audio entry with a jitter, where there was no jitter before
    cases List.findSome? (fun x : Stat => x.jitter)
      (List.filter (fun x => x.isRTP "inbound-rtp" "video") report).reverse <;>
    cases List.findSome? (fun x : Stat => x.jitter)
      (List.filter (fun x => x.isRTP "inbound-rtp" "audio") report) <;> simp

/-! ## Rounding -/

theorem round_mono {x y : ℚ} (h : x ≤ y) : round x ≤ round y := by
  rw [round_eq, round_eq]
  exact Int.floor_le_floor (by linarith)

theorem round_nonneg {x : ℚ} (h : 0 ≤ x) : 0 ≤ round x := by
  have hround := round_mono h
  rwa [round_zero] at hround

theorem round_le_of_le {x : ℚ} {n : ℤ} (h : x ≤ n) : round x ≤ n := by
  have hround := round_mono h
  rwa [round_intCast] at hround

theorem max_round (x : ℚ) : max 0 (round x) = round (max 0 x) := by
  rcases le_total 0 x with h | h
  · rw [max_eq_right h, max_eq_right (round_nonneg h)]
  · have hround := round_mono h
    rw [round_zero] at hround
    rw [max_eq_left h, max_eq_left hround, round_zero]

/-- A counter that counts again from the start counts as none. -/
theorem packetCounterDeltas_nonneg {previous : Option PacketCounters}
    {current deltas : PacketCounters} (h : packetCounterDeltas previous current = some deltas) :
    0 ≤ deltas.lost ∧ 0 ≤ deltas.received := by
  cases previous with
  | none => simp [packetCounterDeltas] at h
  | some previous =>
    simp only [packetCounterDeltas, Option.ite_none_left_eq_some, not_or, not_lt,
      Option.some.injEq] at h
    obtain ⟨⟨-, -, -, -, hlost, hreceived⟩, rfl⟩ := h
    exact ⟨nearest_nonneg (sub_nonneg.mpr hlost), nearest_nonneg (sub_nonneg.mpr hreceived)⟩

theorem sampledDeltas_nonneg {deltas : PacketCounters} (h : deltas ∈ sampledDeltas report previous) :
    0 ≤ deltas.lost ∧ 0 ≤ deltas.received := by
  obtain ⟨stat, -, hstat⟩ := List.mem_filterMap.mp h
  exact packetCounterDeltas_nonneg hstat

/-- The whole numbers up to `2 ^ 53` are doubles. -/
theorem representable_whole {n : ℤ} (hn : |n| ≤ 2 ^ 53) : binary64.Representable n := by
  refine representable_intCast (by decide) ?_
  rw [show (2 : ℚ) ^ ((binary64.fraction : ℤ) + 1) = ((2 ^ 53 : ℤ) : ℚ) by norm_num [binary64]]
  exact_mod_cast hn

/-- A result between zero and a whole number is rounded to one. -/
theorem double_bounds {x : ℚ} {n : ℤ} (hn : |n| ≤ 2 ^ 53) (h : 0 ≤ x ∧ x ≤ n) :
    0 ≤ double x ∧ double x ≤ n :=
  ⟨nearest_nonneg h.1, nearest_le (representable_whole hn) h.2⟩

/-- The share of packets lost in percent, where the numbers of packets are
doubles. -/
theorem share_bounds {lost received : ℚ} (hlost : 0 ≤ lost) (hreceived : 0 ≤ received)
    (hdouble : binary64.Representable lost) :
    0 ≤ double (double (lost / double (lost + received)) * 100) ∧
      double (double (lost / double (lost + received)) * 100) ≤ (100 : ℤ) := by
  have htotal : lost ≤ double (lost + received) := le_nearest hdouble (by linarith)
  have hshare : 0 ≤ double (lost / double (lost + received)) ∧
      double (lost / double (lost + received)) ≤ (1 : ℤ) := by
    refine double_bounds (by norm_num) ⟨div_nonneg hlost (hlost.trans htotal), ?_⟩
    exact_mod_cast div_le_one_of_le₀ htotal (hlost.trans htotal)
  have hone : double (lost / double (lost + received)) ≤ 1 := by exact_mod_cast hshare.2
  exact double_bounds (by norm_num) ⟨mul_nonneg hshare.1 (by norm_num), by push_cast; linarith⟩

/-- Tenths that were written and read are the same tenths again. -/
theorem round_tenths {n : ℤ} (hlow : 0 ≤ n) (hhigh : n ≤ 1000) :
    round (double (double ((n : ℚ) / 10) * 10)) = n := by
  have hlow' : (0 : ℚ) ≤ n := by exact_mod_cast hlow
  have hhigh' : (n : ℚ) ≤ 1000 := by exact_mod_cast hhigh
  have hread : |double ((n : ℚ) / 10) - n / 10| ≤ 2 ^ (7 - 1 - 52 : ℤ) / 2 := by
    refine abs_nearest_sub_le_of_lt (k := 7) ?_ (by decide)
    rw [abs_of_nonneg (div_nonneg hlow' (by norm_num))]
    norm_num
    linarith
  have hnonneg : 0 ≤ double ((n : ℚ) / 10) := nearest_nonneg (div_nonneg hlow' (by norm_num))
  norm_num [abs_le] at hread
  have htimes : |double (double ((n : ℚ) / 10) * 10) - double ((n : ℚ) / 10) * 10| ≤
      2 ^ (10 - 1 - 52 : ℤ) / 2 := by
    refine abs_nearest_sub_le_of_lt (k := 10) ?_ (by decide)
    rw [abs_of_nonneg (mul_nonneg hnonneg (by norm_num))]
    norm_num
    linarith [hread.2]
  norm_num [abs_le] at htimes
  -- both errors together are far below a half
  rw [round_eq, Int.floor_eq_iff]
  constructor <;> linarith [hread.1, hread.2, htimes.1, htimes.2]

/-- The two roundings of the packet loss, to tenths and to the field's unit,
are one. -/
theorem normalizePacketLoss10_eq {lost received : ℚ} (hlost : 0 ≤ lost) (hreceived : 0 ≤ received)
    (hdouble : binary64.Representable lost) :
    normalizePacketLoss10 (packetLossPercentFromDeltas lost received) =
      rounded (if double (lost + received) = 0 then none
        else some (double (double (lost / double (lost + received)) * 100) * 10)) := by
  have hneg : ¬ (lost < 0 ∨ received < 0) := by
    rintro (h | h) <;> linarith
  by_cases htotal : double (lost + received) = 0
  · simp [packetLossPercentFromDeltas, hneg, htotal, normalizePacketLoss10, rounded]
  · have hpos : 0 < double (lost + received) :=
      lt_of_le_of_ne (nearest_nonneg (add_nonneg hlost hreceived)) (Ne.symm htotal)
    obtain ⟨hshare, hle⟩ := share_bounds hlost hreceived hdouble
    generalize hpercent : double (double (lost / double (lost + received)) * 100) = share
      at hshare hle ⊢
    have hlow : 0 ≤ round (share * 10) := round_nonneg (mul_nonneg hshare (by norm_num))
    have hhigh : round (share * 10) ≤ 1000 := by
      push_cast at hle
      exact round_le_of_le (by push_cast; linarith)
    have hsign : ¬ toFixed1 share < 0 :=
      not_lt.mpr (nearest_nonneg (div_nonneg (by exact_mod_cast hlow) (by norm_num)))
    have hround : round (double (toFixed1 share * 10)) = round (share * 10) :=
      round_tenths hlow hhigh
    simp only [packetLossPercentFromDeltas, hneg, if_false, not_le.mpr hpos, htotal, hpercent,
      normalizePacketLoss10, hsign, hround, rounded, Option.map_some, Option.getD_some]
    exact min_eq_right hhigh

/-! ## The fields of the message -/

theorem sampledDeltas_sum_nonneg (report : List Stat) (previous : Option PreviousStats) :
    0 ≤ binary64.sum ((sampledDeltas report previous).map (·.lost)) ∧
      0 ≤ binary64.sum ((sampledDeltas report previous).map (·.received)) := by
  constructor
  · refine sum_nonneg fun x hx => ?_
    obtain ⟨deltas, hdeltas, rfl⟩ := List.mem_map.mp hx
    exact (sampledDeltas_nonneg hdeltas).1
  · refine sum_nonneg fun x hx => ?_
    obtain ⟨deltas, hdeltas, rfl⟩ := List.mem_map.mp hx
    exact (sampledDeltas_nonneg hdeltas).2

theorem values_packetLoss (report : List Stat) (previous : Option PreviousStats) :
    normalizePacketLoss10 (values report previous).packetLoss =
      rounded (sampledLoss report previous) := by
  obtain ⟨hlost, hreceived⟩ := sampledDeltas_sum_nonneg report previous
  simp only [values, totals_lostPackets, totals_receivedPackets, sampledLoss]
  exact normalizePacketLoss10_eq hlost hreceived (representable_sum _ _)

theorem values_jitterMs (report : List Stat) (previous : Option PreviousStats) :
    (values report previous).jitterMs.getD (-1) = rounded (sampledJitter report) := by
  simp only [values, totals_jitterMs, rounded]

theorem values_outboundKbps (report : List Stat) (previous : Option PreviousStats) :
    ((values report previous).outboundKbps.map (max 0)).getD (-1) =
      rounded (sampledVideoKbps report previous) := by
  cases previous with
  | none => rfl
  | some previous =>
    simp only [values, totals_sentBytes, totals_timestamp, sampledVideoKbps, sampledKbps,
      Option.bind_some, rounded]
    split
    · simp [max_round]
    · rfl

theorem values_outboundAudioKbps (report : List Stat) (previous : Option PreviousStats) :
    ((values report previous).outboundAudioKbps.map (max 0)).getD (-1) =
      rounded (sampledAudioKbps report previous) := by
  cases previous with
  | none => rfl
  | some previous =>
    simp only [values, totals_sentAudioBytes, totals_timestamp, sampledAudioKbps, sampledKbps,
      Option.bind_some, rounded]
    split
    · simp [max_round]
    · rfl

/-- A sample between zero and a bound keeps to them when it is rounded. -/
theorem rounded_bounds {sample : Option ℚ} {n : ℤ} (hn : -1 ≤ n)
    (h : ∀ x, sample = some x → 0 ≤ x ∧ x ≤ n) : -1 ≤ rounded sample ∧ rounded sample ≤ n := by
  cases sample with
  | none => exact ⟨le_refl _, hn⟩
  | some x =>
    obtain ⟨hlow, hhigh⟩ := h x rfl
    exact ⟨le_trans (by norm_num) (round_nonneg hlow), round_le_of_le hhigh⟩

theorem milliseconds_bounds {seconds : ℚ} (h : 0 ≤ seconds ∧ seconds ≤ 120) :
    0 ≤ double (seconds * 1000) ∧ double (seconds * 1000) ≤ (120000 : ℤ) :=
  double_bounds (by norm_num) ⟨mul_nonneg h.1 (by norm_num), by push_cast; linarith⟩

theorem sampledJitter_bounds (hrange : InRange report previous) {x : ℚ}
    (h : sampledJitter report = some x) : 0 ≤ x ∧ x ≤ (120000 : ℤ) := by
  obtain ⟨seconds, hseconds, rfl⟩ := Option.map_eq_some_iff.mp h
  have hmem : ∀ p : Stat → Bool, seconds ∈ (report.filter p).filterMap (·.jitter) →
      0 ≤ seconds ∧ seconds ≤ 120 := by
    intro p hp
    obtain ⟨stat, hstat, hjitter⟩ := List.mem_filterMap.mp hp
    exact hrange.jitter stat (List.mem_filter.mp hstat).1 seconds hjitter
  have hbounds : 0 ≤ seconds ∧ seconds ≤ 120 := by
    rcases Option.or_eq_some_iff.mp hseconds with hlast | ⟨-, hhead⟩
    · exact hmem _ (List.mem_of_getLast? hlast)
    · exact hmem _ (List.mem_of_head? hhead)
  exact milliseconds_bounds hbounds

theorem sampledLoss_bounds {x : ℚ} (h : sampledLoss report previous = some x) :
    0 ≤ x ∧ x ≤ (1000 : ℤ) := by
  obtain ⟨hlost, hreceived⟩ := sampledDeltas_sum_nonneg report previous
  simp only [sampledLoss, Option.ite_none_left_eq_some, Option.some.injEq] at h
  obtain ⟨hlow, hhigh⟩ := share_bounds hlost hreceived (representable_sum _ _)
  obtain ⟨-, rfl⟩ := h
  push_cast at hhigh ⊢
  constructor <;> linarith

theorem sampledKbps_nonneg {kind : String} {previousBytes : PreviousStats → ℚ} {x : ℚ}
    (h : sampledKbps kind previousBytes report previous = some x) : 0 ≤ x := by
  obtain ⟨p, -, hp⟩ := Option.bind_eq_some_iff.mp h
  simp only [Option.ite_none_right_eq_some, Option.some.injEq] at hp
  exact hp.2 ▸ le_max_left 0 _

/-- The selected pair is an entry of the report. -/
theorem mem_of_selectedCandidatePair {pair : Stat} (h : selectedCandidatePair report = some pair) :
    pair ∈ report := by
  unfold selectedCandidatePair at h
  simp only at h
  split at h
  case h_1 selected htransport =>
    obtain ⟨stat, -, hstat⟩ := List.exists_of_findSome?_eq_some htransport
    simp only [Option.ite_none_left_eq_some] at hstat
    obtain ⟨-, hpair⟩ := hstat
    obtain rfl := Option.some.inj h
    split at hpair
    · cases hpair
    · cases hpair
    · exact (List.mem_filter.mp (List.mem_of_getLast? hpair)).1
  case h_2 => exact List.mem_of_find?_eq_some h

theorem rtt_bounds (hrange : InRange report previous) {x : ℚ}
    (h : selectedCandidatePairRTT report = some x) : 0 ≤ x ∧ x ≤ (120000 : ℤ) := by
  unfold selectedCandidatePairRTT at h
  split at h
  · cases h
  case h_2 seconds hseconds =>
    obtain ⟨pair, hpair, hrtt⟩ := Option.bind_eq_some_iff.mp hseconds
    obtain ⟨hlow, hhigh⟩ := hrange.rtt pair (mem_of_selectedCandidatePair hpair) seconds hrtt
    rw [if_pos hlow, Option.some.injEq] at h
    exact h ▸ milliseconds_bounds ⟨hlow, hhigh⟩

/-- The round-trip time is sent as it is. -/
theorem wholeRTT_iff (hrange : InRange report previous) :
    WholeRTT report ↔ ∀ x, selectedCandidatePairRTT report = some x → ∃ n : ℤ, x = n := by
  unfold WholeRTT
  constructor
  · intro h x hx
    unfold selectedCandidatePairRTT at hx
    split at hx
    · cases hx
    case h_2 seconds hseconds =>
      obtain ⟨pair, hpair, hrtt⟩ := Option.bind_eq_some_iff.mp hseconds
      obtain ⟨n, hn⟩ := h pair seconds hpair hrtt
      simp only [Option.ite_none_right_eq_some, Option.some.injEq] at hx
      exact ⟨n, hx.2 ▸ hn⟩
  · intro h pair seconds hpair hrtt
    have hlow := (hrange.rtt pair (mem_of_selectedCandidatePair hpair) seconds hrtt).1
    refine h (double (seconds * 1000)) ?_
    simp [selectedCandidatePairRTT, hpair, hrtt, hlow]

/-! ## The message -/

/-- What arrives when every number is an integer. -/
theorem decode_networkState (id : String) (values : Values) {rtt loss jitter video audio : ℤ}
    (hrtt : (Json.num (values.rttMs.getD (-1))).toInt? = some rtt)
    (hloss : (Json.num (normalizePacketLoss10 values.packetLoss : ℚ)).toInt? = some loss)
    (hjitter : (Json.num ((values.jitterMs.getD (-1) : ℤ) : ℚ)).toInt? = some jitter)
    (hvideo : (Json.num (((values.outboundKbps.map (max 0)).getD (-1) : ℤ) : ℚ)).toInt? = some video)
    (haudio : (Json.num (((values.outboundAudioKbps.map (max 0)).getD (-1) : ℤ) : ℚ)).toInt? =
      some audio) :
    decodeMessage (networkState id values) = some
      { version := 1, type := "network_state", participantID := id, rttMs := rtt
        packetLoss10 := loss, jitterMs := jitter, videoKbps := video, audioKbps := audio } := by
  have hversion : (Json.num 1).toInt? = some 1 := toInt?_intCast (n := 1) (by norm_num) (by norm_num)
  simp [decodeMessage, networkState, Message.setField, hversion, hrtt, hloss, hjitter, hvideo,
    haudio, Json.toString?]

/-- What arrives had an integer for its round-trip time. -/
theorem rtt_of_decode {id : String} {values : Values} {m : Message}
    (h : decodeMessage (networkState id values) = some m) :
    ∃ n, (Json.num (values.rttMs.getD (-1))).toInt? = some n := by
  cases hrtt : (Json.num (values.rttMs.getD (-1))).toInt? with
  | some n => exact ⟨n, rfl⟩
  | none =>
    have hversion : (Json.num 1).toInt? = some 1 :=
      toInt?_intCast (n := 1) (by norm_num) (by norm_num)
    simp [decodeMessage, networkState, Message.setField, hversion, hrtt, Json.toString?] at h

/-- A sample in range is an `int`, and in the range that `Validate` checks. -/
theorem toInt?_rounded {sample : Option ℚ} {n : ℤ} (hn : -1 ≤ n) (hmax : n < 2 ^ 63)
    (h : ∀ x, sample = some x → 0 ≤ x ∧ x ≤ n) :
    (Json.num (rounded sample : ℚ)).toInt? = some (rounded sample) := by
  obtain ⟨hlow, hhigh⟩ := rounded_bounds hn h
  exact toInt?_intCast (by omega) (by omega)

theorem kbps_bounds {rate : Option ℚ} (hlow : ∀ x, rate = some x → 0 ≤ x)
    (hhigh : ∀ x, rate = some x → x < 2 ^ 31) :
    ∀ x, rate = some x → 0 ≤ x ∧ x ≤ (2 ^ 31 : ℤ) := by
  intro x hx
  refine ⟨hlow x hx, ?_⟩
  push_cast
  exact (hhigh x hx).le

/-- **A connection report arrives as sampled exactly when the round-trip time
is a whole number of milliseconds.** Otherwise it does not decode, and the
read loop ends. -/
theorem reported_iff_wholeRTT (hid : localParticipantID ≠ "") (hrange : InRange report previous) :
    Reported localParticipantID report previous ↔ WholeRTT report := by
  have hvideo : ∀ x, sampledVideoKbps report previous = some x → 0 ≤ x ∧ x ≤ (2 ^ 31 : ℤ) :=
    kbps_bounds (fun _ h => sampledKbps_nonneg h) hrange.video
  have haudio : ∀ x, sampledAudioKbps report previous = some x → 0 ≤ x ∧ x ≤ (2 ^ 31 : ℤ) :=
    kbps_bounds (fun _ h => sampledKbps_nonneg h) hrange.audio
  rw [wholeRTT_iff hrange]
  constructor
  · rintro ⟨m, hdecode, -⟩ x hx
    obtain ⟨n, hn⟩ := rtt_of_decode hdecode
    have hvalue : (values report previous).rttMs = some x := hx
    rw [hvalue] at hn
    exact ⟨n, toInt?_eq_some hn⟩
  · intro hwhole
    have hrtt : (Json.num ((values report previous).rttMs.getD (-1))).toInt? =
        some (rounded (selectedCandidatePairRTT report)) := by
      have hround : (values report previous).rttMs.getD (-1) =
          (rounded (selectedCandidatePairRTT report) : ℚ) := by
        show (selectedCandidatePairRTT report).getD (-1) = _
        cases hx : selectedCandidatePairRTT report with
        | none => simp [rounded]
        | some x =>
          obtain ⟨n, rfl⟩ := hwhole x hx
          simp [rounded]
      rw [hround]
      exact toInt?_rounded (by norm_num) (by norm_num) fun _ h => rtt_bounds hrange h
    have hdecode := decode_networkState localParticipantID (values report previous) hrtt
      (by rw [values_packetLoss]
          exact toInt?_rounded (by norm_num) (by norm_num) fun _ h => sampledLoss_bounds h)
      (by rw [values_jitterMs]
          exact toInt?_rounded (by norm_num) (by norm_num) fun _ h => sampledJitter_bounds hrange h)
      (by rw [values_outboundKbps]
          exact toInt?_rounded (by norm_num) (by norm_num) hvideo)
      (by rw [values_outboundAudioKbps]
          exact toInt?_rounded (by norm_num) (by norm_num) haudio)
    refine ⟨_, hdecode, ?_, rfl, rfl, rfl, rfl, rfl, rfl⟩
    obtain ⟨hr, hr'⟩ := rounded_bounds (by norm_num) fun _ h => rtt_bounds hrange h
    obtain ⟨hl, hl'⟩ := rounded_bounds (by norm_num)
      fun x (h : sampledLoss report previous = some x) => sampledLoss_bounds h
    obtain ⟨hj, hj'⟩ := rounded_bounds (by norm_num) fun _ h => sampledJitter_bounds hrange h
    obtain ⟨hv, -⟩ := rounded_bounds (by norm_num) hvideo
    obtain ⟨ha, -⟩ := rounded_bounds (by norm_num) haudio
    have hinvalid : ¬ (rounded (selectedCandidatePairRTT report) < -1 ∨
        rounded (sampledLoss report previous) < -1 ∨ 1000 < rounded (sampledLoss report previous) ∨
        rounded (sampledJitter report) < -1 ∨ rounded (sampledVideoKbps report previous) < -1 ∨
        rounded (sampledAudioKbps report previous) < -1 ∨
        120000 < rounded (selectedCandidatePairRTT report) ∨
        120000 < rounded (sampledJitter report)) := by omega
    simp [Message.validate, Message.validateType, hid, hinvalid]

/-! ## Two reports -/

/-- A report whose selected pair has this round-trip time, in seconds. -/
def pairReport (seconds : ℚ) : List Stat :=
  [{ type := some "transport", selectedCandidatePairId := some "pair" },
    { id := some "pair", type := some "candidate-pair", state := some "succeeded"
      currentRoundTripTime := some seconds }]

theorem selectedCandidatePair_pairReport (seconds : ℚ) :
    selectedCandidatePair (pairReport seconds) = (pairReport seconds).getLast? := rfl

theorem inRange_pairReport {seconds : ℚ} (hlow : 0 ≤ seconds) (hhigh : seconds ≤ 120) :
    InRange (pairReport seconds) none :=
  ⟨by simp [pairReport, hlow, hhigh], by simp [pairReport], fun _ h => (by cases h),
    fun _ h => (by cases h)⟩

/-- A round-trip time of 15.625 ms ends the connection. -/
theorem not_reported_fraction :
    ¬ ∀ (localParticipantID : String) (report : List Stat) (previous : Option PreviousStats),
      localParticipantID ≠ "" → InRange report previous →
        Reported localParticipantID report previous := by
  intro hall
  obtain ⟨m, hdecode, -⟩ := hall "p1" (pairReport (1 / 64)) none (by decide)
    (inRange_pairReport (by norm_num) (by norm_num))
  obtain ⟨n, hn⟩ := rtt_of_decode hdecode
  have hrtt : (values (pairReport (1 / 64)) none).rttMs = some (125 / 8) := by
    show selectedCandidatePairRTT (pairReport (1 / 64)) = some (125 / 8)
    decide +kernel
  rw [hrtt, Option.getD_some] at hn
  have hwhole : (125 : ℚ) / 8 = n := toInt?_eq_some hn
  have height : (125 : ℤ) = 8 * n := by
    have htimes : (125 : ℚ) = 8 * n := by linarith
    exact_mod_cast htimes
  omega

/-- The double nearest to 0.018 s arrives as 18 ms. -/
theorem reported_whole : Reported "p1" (pairReport (double (18 / 1000))) none := by
  refine (reported_iff_wholeRTT (by decide)
    (inRange_pairReport (by decide +kernel) (by decide +kernel))).mpr ?_
  intro pair seconds hpair hrtt
  rw [selectedCandidatePair_pairReport] at hpair
  obtain rfl := Option.some.inj hpair
  obtain rfl := Option.some.inj hrtt
  exact ⟨18, by decide +kernel⟩

end SlowMeet.Diagnostics
