/-
What `push_records` (`src/ptlab/wire.py`) has on the wire when it turns out that
its arguments do not do.

Nothing checks the arguments together. The count and the version are checked where
the first message is built, and the name where it is sent; the record version and
the length of a record come up at that record, with the transaction begun, and
whether the characteristic is one of the two that sync only behind the commit.
`begin_is_written` says that past the first three checks the first message goes out,
whatever the rest of the arguments is.
-/
import Ptlab.Wire.Transaction

set_option autoImplicit false

open Bytes Effect Ptlab.Gatt Ptlab.Protocol

namespace Ptlab.Wire

/-! ## Characteristics by name -/

/-- A name in the generated table resolves: no entry is without a bridge ID. -/
theorem resolve_name_known {name : String} (h : name ∈ BRIDGE_CHAR.map Prod.fst) :
    ∃ id, resolve_characteristic (.name name) = .ok (name, id) := by
  have hids : BRIDGE_CHAR.all (fun entry => entry.2.isSome) = true := by decide
  rcases hlookup : BRIDGE_CHAR.lookup name with _ | id
  · obtain ⟨entry, hentry, rfl⟩ := List.mem_map.mp h
    exact absurd (List.lookup_eq_none_iff.mp hlookup entry hentry) (by simp)
  · obtain ⟨pre, post, htable, -⟩ := List.lookup_eq_some_iff.mp hlookup
    have hmem : (name, id) ∈ BRIDGE_CHAR := by
      rw [htable]
      simp
    obtain ⟨value, rfl⟩ := Option.isSome_iff_exists.mp (List.all_eq_true.mp hids _ hmem)
    refine ⟨value, ?_⟩
    unfold resolve_characteristic
    dsimp only
    rw [hlookup]

theorem resolve_name_unknown {name : String} (h : name ∉ BRIDGE_CHAR.map Prod.fst) :
    ∃ e, resolve_characteristic (.name name) = .error e := by
  have hlookup : BRIDGE_CHAR.lookup name = none := by
    rw [List.lookup_eq_none_iff]
    intro entry hentry
    rw [bne_iff_ne]
    intro he
    exact h (he ▸ List.mem_map_of_mem hentry)
  unfold resolve_characteristic
  dsimp only
  rw [hlookup]
  exact ⟨_, rfl⟩

/-! ## What is on the wire stays there -/

section Grows

variable {S : List (List UInt8)}

/-- The wire has at least these frames. -/
def Sent (S : List (List UInt8)) (link : Link) : Prop := S <+: link.client.sent

/-- A request adds its frame, or nothing. -/
theorem request_sent_or_not (characteristic : String) {operation : ℤ} (payload : List UInt8)
    (hop : operation ≠ OP_WRITE_WITHOUT_RESPONSE) :
    Always (Sent S) (Link.request characteristic operation payload) := by
  intro link hlink
  rcases hframe : requestFrame (.name characteristic) operation payload with e | ⟨name, id, frame⟩
  · unfold Link.request
    rw [exec_of, request_refused link.client link.script _ hframe]
    exact hlink
  · rcases request_cases hframe hop link with ⟨error, link', hrun, hsent, -⟩ |
      ⟨error, link', hrun, hsent, -⟩ | ⟨response, link', hrun, hsent, -⟩ <;> rw [hrun]
    · exact hlink.trans (hsent ▸ List.prefix_refl _)
    · exact hlink.trans (hsent ▸ List.prefix_append _ _)
    · exact hlink.trans (hsent ▸ List.prefix_append _ _)

theorem monotonic_sent : Always (Sent S) monotonic := by
  intro link hlink
  unfold monotonic
  rw [exec_of]
  rcases link.clock with _ | ⟨now, clock⟩
  · exact hlink
  · exact hlink

theorem lift_sent {α : Type} (outcome : Except WireError α) : Always (Sent S) (lift outcome) := by
  rcases outcome with e | a
  · exact always_throw _
  · exact always_pure a

theorem writeAccepted_sent (sync_characteristic what : String) (payload : List UInt8) :
    Always (Sent S) (writeAccepted sync_characteristic what payload) := by
  unfold writeAccepted
  refine always_bind (request_sent_or_not _ _ (by decide)) fun response => ?_
  split_ifs
  · exact always_throw _
  · exact always_pure ()

theorem waitLoop_sent (operation : ℕ) (token deadline : ℤ) (fuel : ℕ) :
    Always (Sent S) (waitLoop operation token deadline fuel) := by
  induction fuel with
  | zero => exact always_throw _
  | succ fuel ih =>
      rw [waitLoop]
      refine always_bind monotonic_sent fun now => ?_
      split_ifs
      · refine always_bind (request_sent_or_not _ _ (by decide)) fun status => ?_
        rcases commitReport status with _ | ⟨state, active_operation, active_token⟩
        · exact ih
        · dsimp only
          split_ifs
          · exact always_pure ()
          · exact always_throw _
          · exact ih
          · exact ih
      · exact always_throw _

theorem wait_family_commit_sent (operation : ℕ) (token timeout : ℤ) :
    Always (Sent S) (wait_family_commit operation token timeout) := by
  unfold wait_family_commit
  refine always_bind monotonic_sent fun start => ?_
  refine always_bind (triple_read fun _ h => h) fun readings => ?_
  exact waitLoop_sent operation token _ readings

end Grows

/-! ## The first message -/

section First

variable {sync_characteristic : String} {records : List (List UInt8)} {version : ℤ}
  (record_version : ℤ)

/-- **The first message goes out** if the count is a byte, the version a u32 and the
name a known one. Nothing else about the arguments has been looked at by then. -/
theorem begin_is_written (hcount : records.length ≤ 0xFF)
    (hversion : 0 ≤ version ∧ version ≤ 0xFFFFFFFF)
    (hknown : sync_characteristic ∈ BRIDGE_CHAR.map Prod.fst) (link : Link)
    (hsend : link.sends.headD .ok = .ok) :
    link.client.sent ++
        [frameOf sync_characteristic OP_WRITE (beginMessage records.length version)] <+:
      ((push_records sync_characteristic records version record_version).exec link).2.client.sent
    := by
  obtain ⟨id, hid⟩ := resolve_name_known hknown
  have hfit : (beginMessage records.length version).length ≤ MAX_REQUEST_PAYLOAD := by
    simp [beginMessage, MAX_REQUEST_PAYLOAD]
  have hframe := requestFrame_resolved hid hfit
  generalize hwire : link.client.sent ++
    [frameOf sync_characteristic OP_WRITE (beginMessage records.length version)] = wire
  -- the write puts the frame on the wire, answered or not
  have hfirst : Triple (fun link' => link' = link)
      (writeAccepted sync_characteristic "begin" (beginMessage records.length version))
      (fun _ => Sent wire) (fun _ => Sent wire) := by
    have hwrite : Triple (fun link' => link' = link)
        (Link.write sync_characteristic (beginMessage records.length version))
        (fun _ => Sent wire) (fun _ => Sent wire) := by
      intro link' hlink
      rw [hlink]
      have hout := request_sent link.client link.script hframe
      unfold Link.write Link.request
      rw [exec_of, hsend, ← hwire, ← hout]
      rcases link.client.request (.name sync_characteristic) OP_WRITE
        (beginMessage records.length version) .ok link.script with ⟨ended, client, script⟩
      rcases ended with (_ | response) | e | _ <;> exact List.prefix_refl _
    unfold writeAccepted
    refine triple_bind hwrite fun response => ?_
    split_ifs
    · exact triple_throw fun _ h => h
    · exact triple_pure fun _ h => h
  have hrest : Triple (fun link' => link' = link)
      (push_records sync_characteristic records version record_version)
      (fun _ => Sent wire) (fun _ => Sent wire) := by
    unfold push_records
    rw [begin_sync_eq hcount hversion]
    change Triple _ (pure (beginMessage records.length version) >>= _) _ _
    rw [pure_bind]
    refine triple_bind hfirst fun _ => ?_
    refine always_bind (always_forM fun turn _ => ?_) fun _ => ?_
    · exact always_bind (lift_sent _) fun payload => writeAccepted_sent _ _ payload
    · refine always_bind (lift_sent _) fun payload => ?_
      refine always_bind (writeAccepted_sent _ _ payload) fun _ => ?_
      exact always_bind (lift_sent _) fun operation => wait_family_commit_sent operation _ _
  exact hrest.final rfl (fun _ _ h => h) (fun _ _ h => h)

/-- Whatever the watch and the socket do, the push raises, and nothing of it has
been sent. -/
def RaisesBeforeWriting (sync_characteristic : String) (records : List (List UInt8))
    (version record_version : ℤ) : Prop :=
  ∀ link : Link, ∃ error link',
    (push_records sync_characteristic records version record_version).exec link =
      (.error error, link') ∧ error ≠ .waiting ∧ link'.client.sent = link.client.sent

variable {record_version} in
theorem RaisesBeforeWriting.sent
    (h : RaisesBeforeWriting sync_characteristic records version record_version) (link : Link) :
    ((push_records sync_characteristic records version record_version).exec link).2.client.sent =
      link.client.sent := by
  obtain ⟨error, link', hrun, -, hsent⟩ := h link
  rw [hrun]
  exact hsent

/-- **What is refused in time**: a count over a byte, a version outside u32 and a
name that is not in the table. -/
theorem raisesBeforeWriting_iff :
    RaisesBeforeWriting sync_characteristic records version record_version ↔
      records.length > 0xFF ∨ ¬ (0 ≤ version ∧ version ≤ 0xFFFFFFFF) ∨
        sync_characteristic ∉ BRIDGE_CHAR.map Prod.fst := by
  by_cases hcount : records.length > 0xFF
  · refine iff_of_true (fun link => ?_) (.inl hcount)
    have hbegin : begin_sync records.length version =
        .error (.ValueError "sync count must be a u8") := if_pos hcount
    unfold push_records
    rw [hbegin]
    exact ⟨_, link, rfl, by simp, rfl⟩
  by_cases hversion : ¬ (0 ≤ version ∧ version ≤ 0xFFFFFFFF)
  · refine iff_of_true (fun link => ?_) (.inr (.inl hversion))
    have hbegin : begin_sync records.length version = .error .StructError := by
      unfold begin_sync
      rw [if_neg hcount, if_pos hversion]
    unfold push_records
    rw [hbegin]
    exact ⟨_, link, rfl, by simp, rfl⟩
  rw [not_not] at hversion
  rw [not_lt] at hcount
  by_cases hknown : sync_characteristic ∈ BRIDGE_CHAR.map Prod.fst
  · -- a link that takes the first message shows that it goes out
    refine iff_of_false (fun h => ?_) ?_
    · have hout := begin_is_written record_version hcount hversion hknown (scripted [] []) rfl
      rw [h.sent (scripted [] [])] at hout
      exact absurd hout.length_le (by simp)
    · rintro (hover | hout | hnot)
      · omega
      · exact hout hversion
      · exact hnot hknown
  · refine iff_of_true (fun link => ?_) (.inr (.inr hknown))
    obtain ⟨e, hresolve⟩ := resolve_name_unknown hknown
    have hframe : requestFrame (.name sync_characteristic) OP_WRITE
        (beginMessage records.length version) = .error e := by
      unfold requestFrame
      rw [hresolve]
    unfold push_records writeAccepted Link.write Link.request
    rw [begin_sync_eq hcount hversion]
    change ∃ error link', (pure (beginMessage records.length version) >>= _ :
      Effect Link PushExc Unit).exec link = (.error error, link') ∧ _
    rw [pure_bind, exec_bind, exec_bind, exec_of,
      request_refused link.client link.script _ hframe]
    exact ⟨_, _, rfl, by simp, rfl⟩

/-- A record version that is no byte: the transaction is begun on the watch, and then
the record cannot be built. Another characteristic: all is written, the commit
too, and then there is no operation for it. -/
theorem push_writes_and_then_raises :
    (let push := push_records "schedule_sync" [List.replicate 43 0] 7 256
      let run := push.exec (scripted [accepts] [])
      ¬ Pushable "schedule_sync" [List.replicate 43 0] 7 256 ∧
        run.1 = .error (.wire (.ValueError "bytes must be in range(0, 256)")) ∧
        run.2.client.sent = [[0, 0, 7, 0, 0, 0, 1, 7, 0, 0, 0]] ∧
        ¬ RaisesBeforeWriting "schedule_sync" [List.replicate 43 0] 7 256) ∧
    (let push := push_records "weather" [] 7 3
      let run := push.exec (scripted [accepts, accepts] [])
      ¬ Pushable "weather" [] 7 3 ∧ run.1 = .error (.wire (.KeyError "weather")) ∧
        run.2.client.sent = [[14, 0, 7, 0, 0, 0, 0, 7, 0, 0, 0], [14, 0, 3, 0, 2, 0, 0]] ∧
        ¬ RaisesBeforeWriting "weather" [] 7 3) := by
  refine ⟨⟨?_, by decide +kernel, by decide +kernel, ?_⟩, ?_, by decide +kernel,
    by decide +kernel, ?_⟩
  · exact fun h => absurd h.record_version (by decide)
  · intro h
    have hout : ((push_records "schedule_sync" [List.replicate 43 0] 7 256).exec
      (scripted [accepts] [])).2.client.sent ≠ [] := by decide +kernel
    exact hout (h.sent _)
  · exact fun h => absurd h.sync (by decide)
  · intro h
    have hout : ((push_records "weather" [] 7 3).exec
      (scripted [accepts, accepts] [])).2.client.sent ≠ [] := by decide +kernel
    exact hout (h.sent _)

end First

end Ptlab.Wire
