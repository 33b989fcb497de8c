import Handoff.Proofs.Round.Stage
/-!
# Orderly rounds

The invariant of producers that come one after the other and of a tester that polls,
with every store call atomic and successful.  The store, the history and the phases of
the two sides agree on whose offer stands, which poll has read it, and which poll has
answered whom.
-/

namespace Handoff

namespace Interleaving

open WorkRequest

variable {σ : Type} {model : StoreModel σ}

/-- The producer is in the phase `bot`, the tester in the phase `tester`, and the round
has come to `progress`. -/
structure Invariant (map : KeyValue model) (orders : Nat → Order) (s : State σ)
    (bot : OfferPhase) (tester : PollPhase) (progress : Progress) : Prop where
  seat : s.seat = .poll s.shift
  botFollows : s.bot.Follows (OfferPhase.Moves (orders s.turn).id)
    (OfferPhase.Ended (orders s.turn).id) bot
  testerFollows : s.tester.Follows PollPhase.Moves (fun _ phase => phase.Rests) tester
  offered : map.contents s.store (BlobKey.signal .offered) =
    (standing s.history).map fun number => (orders number).id.payload
  account : tester.Account (recordOf (.poll s.shift) s.history)
  lenient : tester.Lenient (recordOf (.poll s.shift) s.history)
  ledger : Ledger orders s.history s.turn s.shift progress
  botAt : (s.view map).BotAt orders progress bot
  testerAt : (s.view map).TesterAt orders progress tester

namespace Invariant

variable {map : KeyValue model} {orders : Nat → Order} {s : State σ} {bot : OfferPhase}
  {tester : PollPhase} {progress : Progress} {request : WorkRequest} {answer : request.Answer}
  {store : σ}

private theorem offered_of_not_writes {party : Party}
    (h : Invariant map orders s bot tester progress)
    (served : Served model request s.store answer store)
    (hkey : ¬request.writes (BlobKey.signal .offered)) :
    map.contents store (BlobKey.signal .offered) =
      (standing (⟨party, ⟨request, answer⟩⟩ :: s.history)).map fun number =>
        (orders number).id.payload := by
  rw [served.contents_of_not_writes map hkey, standing_cons_of_not_writes hkey]
  exact h.offered

private theorem offered_of_lower {party : Party} {answer : Except StoreFault Unit}
    (served : Served model (lower .offered) s.store answer store) :
    map.contents store (BlobKey.signal .offered) =
      (standing (⟨party, ⟨lower .offered, answer⟩⟩ :: s.history)).map fun number =>
        (orders number).id.payload := by
  rw [served.contents map, StoreCall.effect_delete, Function.update_self,
    standing_lower_offered]
  rfl

/-! ## The producer makes a request -/

section Bot

variable {program : Program Work (Except RoundFault (Option Status))} {after : OfferPhase}

private theorem botDid {x : Exchange} {later : Progress}
    (h : Invariant map orders s bot tester progress)
    (follows : program.Follows (OfferPhase.Moves (orders s.turn).id)
      (OfferPhase.Ended (orders s.turn).id) after)
    (offered : map.contents store (BlobKey.signal .offered) =
      (standing (⟨.producer s.turn, x⟩ :: s.history)).map fun number =>
        (orders number).id.payload)
    (ledger : Ledger orders (⟨.producer s.turn, x⟩ :: s.history) s.turn s.shift later)
    (botAt : ((s.botDid x store program).view map).BotAt orders later after)
    (testerAt : ((s.botDid x store program).view map).TesterAt orders later tester) :
    Invariant map orders (s.botDid x store program) after tester later := by
  have hrecord : recordOf (.poll s.shift) (s.botDid x store program).history =
      recordOf (.poll s.shift) s.history := recordOf_poll_producer
  exact {
    seat := h.seat
    botFollows := follows
    testerFollows := h.testerFollows
    offered := offered
    account := hrecord.symm ▸ h.account
    lenient := hrecord.symm ▸ h.lenient
    ledger := ledger
    botAt := botAt
    testerAt := testerAt }

private theorem bot_quiet (h : Invariant map orders s bot tester progress)
    (served : Served model request s.store answer store) (hquiet : request.Quiet)
    (follows : program.Follows (OfferPhase.Moves (orders s.turn).id)
      (OfferPhase.Ended (orders s.turn).id) after)
    (botAt : (s.view map).BotAt orders progress after) :
    Invariant map orders (s.botDid ⟨request, answer⟩ store program) after tester progress := by
  have hview : (s.botDid ⟨request, answer⟩ store program).view map = s.view map :=
    view_of_quiet map _ _ _ _ served hquiet (.inl nofun)
  refine h.botDid follows (h.offered_of_not_writes served hquiet.offered) ?_ ?_ ?_
  · exact h.ledger.bot hquiet.ne_raise_offered
  · rw [hview]
    exact botAt
  · rw [hview]
    exact h.testerAt

private theorem bot_sweep {signal : Signal} {rest : List Signal}
    (h : Invariant map orders s (.removing signal rest) tester progress)
    (served : Served model (lower signal) s.store (.ok ()) store)
    (follows : program.Follows (OfferPhase.Moves (orders s.turn).id)
      (OfferPhase.Ended (orders s.turn).id) (.sweeping rest)) :
    Invariant map orders (s.botDid ⟨lower signal, .ok ()⟩ store program) (.sweeping rest)
      tester progress := by
  obtain ⟨rfl, hcleared⟩ := h.botAt
  cases signal with
  | offered =>
      have hview := view_lower_offered map s.turn s.shift s.history (.producer s.turn) served
      refine h.botDid follows (offered_of_lower served) (h.ledger.bot nofun) ?_ ?_
      · rw [State.view, State.botDid, hview]
        exact ⟨rfl, fun _ => rfl, fun hrest => hcleared.finished (by simp [hrest])⟩
      · rw [State.view, State.botDid, hview]
        exact h.testerAt.swept
  | claimed =>
      refine h.bot_quiet served .lower_claimed follows ⟨rfl, hcleared.tail nofun nofun⟩
  | finished =>
      have hview := view_lower_finished map s.turn s.shift s.history (.producer s.turn) served
      refine h.botDid follows (h.offered_of_not_writes served (by simp [writes]))
        (h.ledger.bot nofun) ?_ ?_
      · rw [State.view, State.botDid, hview]
        exact ⟨rfl, fun hrest => hcleared.offered (by simp [hrest]), fun _ => rfl⟩
      · rw [State.view, State.botDid, hview]
        exact h.testerAt.of_finished

private theorem bot_offer {store : σ} (h : Invariant map orders s .clear tester progress)
    (served : Served model (raise .offered (orders s.turn).id) s.store (.ok ()) store)
    (follows : program.Follows (OfferPhase.Moves (orders s.turn).id)
      (OfferPhase.Ended (orders s.turn).id) .waiting) :
    Invariant map orders
      (s.botDid ⟨raise .offered (orders s.turn).id, .ok ()⟩ store program) .waiting tester
      .opened := by
  obtain ⟨rfl, hcleared⟩ := h.botAt
  have hview := view_offer map s.turn s.shift s.history s.turn served
  refine h.botDid follows ?_ h.ledger.offer ?_ ?_
  · rw [served.contents map, StoreCall.effect_put, Function.update_self,
      standing_raise_offered]
    rfl
  · rw [State.view, State.botDid, hview]
    exact .inl ⟨rfl, hcleared.finished List.not_mem_nil⟩
  · rw [State.view, State.botDid, hview]
    exact h.testerAt.offer

private theorem bot_finish {store : σ} {entry : Option Status}
    (h : Invariant map orders s (.collected entry) tester progress)
    (served : Served model (lower .finished) s.store (.ok ()) store)
    (follows : program.Follows (OfferPhase.Moves (orders s.turn).id)
      (OfferPhase.Ended (orders s.turn).id) (.returned entry)) :
    Invariant map orders (s.botDid ⟨lower .finished, .ok ()⟩ store program)
      (.returned entry) tester progress := by
  have hview := view_lower_finished map s.turn s.shift s.history (.producer s.turn) served
  refine h.botDid follows (h.offered_of_not_writes served (by simp [writes]))
    (h.ledger.bot nofun) ?_ ?_
  · exact h.botAt
  · rw [State.view, State.botDid, hview]
    exact h.testerAt.of_finished

private theorem botAt_peek (h : Invariant map orders s .peeking tester progress) :
    (s.view map).BotAt orders progress (OfferPhase.peek (orders s.turn).id
      (SignalBoard.reading .finished
        (.ok (map.contents s.store (BlobKey.signal .finished))))) := by
  rcases h.botAt with ⟨rfl, hfinished⟩ | hreported
  · change map.contents s.store _ = none at hfinished
    rw [hfinished]
    exact .inl ⟨rfl, hfinished⟩
  · cases progress with
    | preparing => exact hreported.elim
    | opened => exact hreported.elim
    | answered poll status =>
        obtain ⟨hfinished, hstatus⟩ := hreported
        change map.contents s.store _ = some (orders s.turn).id.payload at hfinished
        rw [hfinished, SignalBoard.reading_payload, OfferPhase.peek, if_pos rfl]
        exact ⟨hfinished, hstatus⟩

private theorem botAt_collect (h : Invariant map orders s .seen tester progress) :
    (s.view map).BotAt orders progress (.collected
      (Archive.statusOf (map.contents s.store (BlobKey.status (orders s.turn).id)))) := by
  have hreported := h.botAt
  cases progress with
  | preparing => exact hreported.elim
  | opened => exact hreported.elim
  | answered poll status =>
      have hstatus : map.contents s.store (BlobKey.status (orders s.turn).id) =
          some status.payload := hreported.2
      rw [hstatus]
      exact Archive.statusOf_payload status

theorem bot_move (h : Invariant map orders s bot tester progress)
    (hmove : OfferPhase.Moves (orders s.turn).id bot request answer after)
    (hnext : program.Follows (OfferPhase.Moves (orders s.turn).id)
      (OfferPhase.Ended (orders s.turn).id) after)
    (served : Served model request s.store answer store) :
    ∃ later, Invariant map orders (s.botDid ⟨request, answer⟩ store program) after tester
      later := by
  have hat := h.botAt
  cases hmove with
  | observe answer => exact ⟨_, h.bot_quiet served (.get _) hnext hat⟩
  | watch answer => exact ⟨_, h.bot_quiet served (.get _) hnext hat⟩
  | clock reading => exact ⟨_, h.bot_quiet served .now hnext hat⟩
  | clockAgain reading => exact ⟨_, h.bot_quiet served .now hnext hat⟩
  | sleep span => exact ⟨_, h.bot_quiet served (.sleep _) hnext hat⟩
  | up => exact ⟨_, h.bot_quiet served (.has _) hnext hat⟩
  | @down signal rest =>
      have hdown : map.contents s.store (BlobKey.signal signal) = none := by
        simpa using served.has map
      refine ⟨_, h.bot_quiet served (.has _) hnext ⟨hat.1, hat.2.tail ?_ ?_⟩⟩
      · rintro rfl
        exact Option.map_eq_none_iff.1 (h.offered.symm.trans hdown)
      · rintro rfl
        exact hdown
  | removed => exact ⟨_, h.bot_sweep served hnext⟩
  | free => exact ⟨_, h.bot_quiet served (.has _) hnext hat⟩
  | taken =>
      have hstanding : standing s.history = none := hat.2.offered List.not_mem_nil
      have hup := served.has map
      rw [h.offered, hstanding] at hup
      cases hup
  | offer => exact ⟨_, h.bot_offer served hnext⟩
  | peek answer =>
      obtain rfl := served.get map
      exact ⟨_, h.bot_quiet served (.get _) hnext h.botAt_peek⟩
  | collect entry =>
      obtain rfl := Except.ok.inj (served.get map)
      exact ⟨_, h.bot_quiet served (.get _) hnext h.botAt_collect⟩
  | finish => exact ⟨_, h.bot_finish served hnext⟩
  | sweepFault fault => exact nomatch served.has map
  | removeFault fault => exact nomatch served.delete map
  | checkFault fault => exact nomatch served.has map
  | offerFault fault => exact nomatch served.put map
  | collectFault fault => exact nomatch served.get map
  | finishFault fault => exact nomatch served.delete map

theorem bot_step
    {next : request.Answer → Program Work (Except RoundFault (Option Status))}
    (h : Invariant map orders s bot tester progress)
    (asks : s.bot = .ask (I := Work) request next)
    (served : Served model request s.store answer store) :
    ∃ after later,
      Invariant map orders (s.botDid ⟨request, answer⟩ store (next answer)) after tester later := by
  obtain ⟨after, hmove, hnext⟩ := Program.Follows.step (asks ▸ h.botFollows) answer
  exact ⟨after, h.bot_move hmove hnext served⟩

end Bot

/-! ## The poll makes a request -/

section Tester

variable {program : Program Work Unit} {after : PollPhase}

theorem history_testerDid {x : Exchange} (h : Invariant map orders s bot tester progress) :
    (s.testerDid x store program).history = ⟨.poll s.shift, x⟩ :: s.history := by
  rw [← h.seat]
  rfl

/-- An exchange of the poll touches nothing that concerns the producer alone. -/
private theorem testerDid {later : Progress}
    (h : Invariant map orders s bot tester progress)
    (hmove : PollPhase.Moves tester request answer after)
    (follows : program.Follows PollPhase.Moves (fun _ phase => phase.Rests) after)
    (offered : map.contents store (BlobKey.signal .offered) =
      (standing (⟨.poll s.shift, ⟨request, answer⟩⟩ :: s.history)).map fun number =>
        (orders number).id.payload)
    (ledger : Ledger orders (⟨.poll s.shift, ⟨request, answer⟩⟩ :: s.history) s.turn s.shift
      later)
    (botAt : (view map s.turn s.shift (⟨.poll s.shift, ⟨request, answer⟩⟩ :: s.history)
      store).BotAt orders later bot)
    (testerAt : (view map s.turn s.shift (⟨.poll s.shift, ⟨request, answer⟩⟩ :: s.history)
      store).TesterAt orders later after) :
    Invariant map orders (s.testerDid ⟨request, answer⟩ store program) bot after later := by
  have hhistory : (s.testerDid ⟨request, answer⟩ store program).history =
      ⟨.poll s.shift, ⟨request, answer⟩⟩ :: s.history := h.history_testerDid
  have hrecord : recordOf (.poll s.shift)
      (s.testerDid ⟨request, answer⟩ store program).history =
        ⟨request, answer⟩ :: recordOf (.poll s.shift) s.history := by
    rw [hhistory, recordOf_cons_self]
  exact {
    seat := h.seat
    botFollows := h.botFollows
    testerFollows := follows
    offered := hhistory.symm ▸ offered
    account := hrecord.symm ▸ h.account.step hmove
    lenient := hrecord.symm ▸ h.lenient.step h.account hmove
    ledger := hhistory.symm ▸ ledger
    botAt := by
      rw [State.view, hhistory]
      exact botAt
    testerAt := by
      rw [State.view, hhistory]
      exact testerAt }

private theorem tester_quiet (h : Invariant map orders s bot tester progress)
    (served : Served model request s.store answer store) (hquiet : request.Quiet)
    (hlook : request ≠ look .offered) (hmove : PollPhase.Moves tester request answer after)
    (follows : program.Follows PollPhase.Moves (fun _ phase => phase.Rests) after)
    (testerAt : (s.view map).TesterAt orders progress after) :
    Invariant map orders (s.testerDid ⟨request, answer⟩ store program) bot after progress := by
  have hview := view_of_quiet map s.turn s.shift s.history (.poll s.shift) served hquiet
    (.inr hlook)
  refine h.testerDid hmove follows (h.offered_of_not_writes served hquiet.offered)
    (h.ledger.poll h.account h.lenient hmove hquiet.ne_raise_finished) ?_ ?_
  · rw [hview]
    exact h.botAt
  · rw [hview]
    exact testerAt

private theorem testerAt_look {seen : Except StoreFault (Option WorkUnitId)}
    (h : Invariant map orders s bot (.looking seen) progress) :
    ({ s.view map with read := standing s.history } : View).TesterAt orders progress
      (.looking (SignalBoard.reading .offered
        (.ok (map.contents s.store (BlobKey.signal .offered))))) := by
  have hidle := h.testerAt.idle trivial
  rw [h.offered]
  cases hstanding : standing s.history with
  | none => exact hidle
  | some number =>
      obtain ⟨rfl, rfl⟩ := hidle number hstanding
      rw [Option.map_some, SignalBoard.reading_payload]
      exact ⟨rfl, rfl, rfl, hstanding⟩

private theorem tester_lower {store : σ} (h : Invariant map orders s bot tester progress)
    (served : Served model (lower .offered) s.store (.ok ()) store)
    (hmove : PollPhase.Moves tester (lower .offered) (.ok ()) after)
    (follows : program.Follows PollPhase.Moves (fun _ phase => phase.Rests) after)
    (testerAt : ({ s.view map with standing := none } : View).TesterAt orders progress after) :
    Invariant map orders (s.testerDid ⟨lower .offered, .ok ()⟩ store program) bot after
      progress := by
  have hview := view_lower_offered map s.turn s.shift s.history (.poll s.shift) served
  refine h.testerDid hmove follows (offered_of_lower served)
    (h.ledger.poll h.account h.lenient hmove nofun) ?_ ?_
  · rw [hview]
    exact h.botAt.of_standing_none
  · rw [hview]
    exact testerAt

private theorem tester_report {store : σ} {id : WorkUnitId} {status : Status} {ran : Bool}
    (h : Invariant map orders s bot tester progress)
    (served : Served model (report id status) s.store (.ok ()) store)
    (hmove : PollPhase.Moves tester (report id status) (.ok ()) (.judged ran id status))
    (follows : program.Follows PollPhase.Moves (fun _ phase => phase.Rests)
      (.judged ran id status))
    (hholding : (s.view map).Holding orders progress id
      (if ran then none else some (s.view map).turn)) :
    Invariant map orders (s.testerDid ⟨report id status, .ok ()⟩ store program) bot
      (.judged ran id status) progress := by
  have hview := view_report map s.turn s.shift s.history (.poll s.shift) served
  obtain rfl := hholding.opened
  refine h.testerDid hmove follows (h.offered_of_not_writes served (by simp [writes]))
    (h.ledger.poll h.account h.lenient hmove fun other => report_ne_raise id other _ _) ?_ ?_
  · rw [hview]
    have hbot := View.botAt_opened.1 h.botAt
    exact View.botAt_opened.2 hbot
  · rw [hview]
    exact ⟨hholding.congr rfl rfl rfl, Function.update_self _ _ _⟩

private theorem tester_announce {store : σ} {id : WorkUnitId} {status : Status} {ran : Bool}
    (h : Invariant map orders s bot (.judged ran id status) progress)
    (served : Served model (raise .finished id) s.store (.ok ()) store)
    (hmove : PollPhase.Moves (.judged ran id status) (raise .finished id) (.ok ())
      (.announced ran id status))
    (follows : program.Follows PollPhase.Moves (fun _ phase => phase.Rests)
      (.announced ran id status)) :
    Invariant map orders (s.testerDid ⟨raise .finished id, .ok ()⟩ store program) bot
      (.announced ran id status) (.answered s.shift status) := by
  have hview := view_announce map s.turn s.shift s.history (.poll s.shift) served
  obtain ⟨hholding, hstatus⟩ := h.testerAt
  obtain rfl := hholding.unit
  obtain rfl := hholding.opened
  obtain ⟨hbot, -⟩ := View.botAt_opened.1 h.botAt
  refine h.testerDid hmove follows
    (h.offered_of_not_writes served (by simp [writes]))
    (h.ledger.announce h.account h.lenient hholding.read) ?_ ?_
  · rw [hview]
    rcases hbot with rfl | rfl
    · exact .inr ⟨rfl, hstatus⟩
    · exact .inr ⟨rfl, hstatus⟩
  · rw [hview]
    refine ⟨s.turn, hholding.read, rfl, .same rfl ?_⟩
    have hstanding := hholding.standing
    cases ran with
    | true => exact .inl hstanding
    | false => exact .inr ⟨rfl, hstanding⟩

private theorem tester_write {call : StoreCall} {result : call.Result} {id : WorkUnitId}
    (h : Invariant map orders s bot tester progress)
    (served : Served model (.store call) s.store (.ok result) store)
    (hwrites : PollPhase.Writes id tester call after)
    (follows : program.Follows PollPhase.Moves (fun _ phase => phase.Rests) after) :
    ∃ later, Invariant map orders (s.testerDid ⟨.store call, .ok result⟩ store program) bot after
      later := by
  have hmove := PollPhase.Moves.write result hwrites
  have hat := h.testerAt
  cases hwrites with
  | excuse => exact ⟨_, h.tester_report served hmove follows hat⟩
  | claim => exact ⟨_, h.tester_quiet served (.raise_claimed id) nofun hmove follows hat⟩
  | take => exact ⟨_, h.tester_lower served hmove follows ⟨hat.unit, hat.opened, hat.read, rfl⟩⟩
  | judge => exact ⟨_, h.tester_report served hmove follows hat⟩
  | announce => exact ⟨_, h.tester_announce served hmove follows⟩
  | release =>
      obtain ⟨number, -, -, htrailing⟩ := hat
      exact ⟨_, h.tester_quiet served .lower_claimed nofun hmove follows htrailing.idle⟩
  | withdraw => exact ⟨_, h.tester_lower served hmove follows nofun⟩

theorem served_ok {call : StoreCall} {fault : StoreFault} {id : WorkUnitId}
    (map : KeyValue model) (hwrites : PollPhase.Writes id tester call after) :
    ¬Served model (.store call) s.store (.error fault) store := by
  intro served
  cases hwrites with
  | excuse => exact nomatch served.put map
  | claim => exact nomatch served.put map
  | take => exact nomatch served.delete map
  | judge => exact nomatch served.put map
  | announce => exact nomatch served.put map
  | release => exact nomatch served.delete map
  | withdraw => exact nomatch served.delete map

theorem tester_move (h : Invariant map orders s bot tester progress)
    (hmove : PollPhase.Moves tester request answer after)
    (hnext : program.Follows PollPhase.Moves (fun _ phase => phase.Rests) after)
    (served : Served model request s.store answer store) :
    ∃ later, Invariant map orders (s.testerDid ⟨request, answer⟩ store program) bot after
      later := by
  have hat := h.testerAt
  have hkept := hmove
  cases hmove with
  | reloadCheck wanted =>
      exact ⟨_, h.tester_quiet served .reloadWanted nofun hkept hnext hat⟩
  | look answer =>
      obtain rfl := served.get map
      have hview := view_look map s.turn s.shift s.history served
      refine ⟨_, h.testerDid hkept hnext (h.offered_of_not_writes served id)
        (h.ledger.poll h.account h.lenient hkept nofun) ?_ ?_⟩
      · rw [hview]
        exact h.botAt.congr rfl rfl rfl rfl
      · rw [hview]
        exact h.testerAt_look
  | observe answer other =>
      refine ⟨_, h.tester_quiet served (.get _) (fun hlook => other ?_) hkept hnext hat⟩
      exact BlobKey.signal_injective (StoreCall.get.inj (WorkRequest.store.inj hlook))
  | giveUp answer garbled => exact hat.elim
  | inspect answer => exact hat.elim
  | recover answer => exact hat.elim
  | probe answer => exact hat.elim
  | lower answer => exact hat.elim
  | stuck fault => exact ⟨_, h.tester_quiet served (.checkOut _) nofun hkept hnext
      (View.Holding.idle hat)⟩
  | missing => exact ⟨_, h.tester_quiet served (.checkOut _) nofun hkept hnext hat⟩
  | arrive found => exact ⟨_, h.tester_quiet served (.checkOut _) nofun hkept hnext hat⟩
  | reload => exact ⟨_, h.tester_quiet served .reloadWanted nofun hkept hnext
      (View.Holding.idle hat)⟩
  | astray other => exact ⟨_, h.tester_quiet served .reloadWanted nofun hkept hnext
      (View.Holding.idle hat)⟩
  | agree => exact ⟨_, h.tester_quiet served .reloadWanted nofun hkept hnext hat⟩
  | run command answer => exact ⟨_, h.tester_quiet served (.run _ _) nofun hkept hnext hat⟩
  | cleanUp command limit answer =>
      exact ⟨_, h.tester_quiet served (.run _ _) nofun hkept hnext hat⟩
  | archive label field content answer =>
      exact ⟨_, h.tester_quiet served (.put_log _ _ _ _) nofun hkept hnext hat⟩
  | write result writes => exact h.tester_write served writes hnext
  | fault fault writes => exact absurd served (served_ok map writes)

theorem tester_step {next : request.Answer → Program Work Unit}
    (h : Invariant map orders s bot tester progress)
    (asks : s.tester = .ask (I := Work) request next)
    (served : Served model request s.store answer store) :
    ∃ after later,
      Invariant map orders (s.testerDid ⟨request, answer⟩ store (next answer)) bot after
        later := by
  obtain ⟨after, hmove, hnext⟩ := Program.Follows.step (asks ▸ h.testerFollows) answer
  exact ⟨after, h.tester_move hmove hnext served⟩

end Tester

/-! ## A whole run -/

theorem opening (orders : Nat → Order)
    (free : map.contents store (BlobKey.signal .offered) = none) :
    Invariant map orders (Interleaving.opening orders store) (.sweeping Signal.all)
      (.looking (.ok none)) .preparing where
  seat := rfl
  botFollows := Producer.follows_offerAndWait _ _ _
  testerFollows := trivial
  offered := free
  account := Calm.nil
  lenient hmissed := absurd hmissed not_missed_nil
  ledger := .nil
  botAt := ⟨rfl, View.cleared_all⟩
  testerAt := nofun

theorem answered {status : Status} (h : Invariant map orders s bot tester progress)
    (returned : s.bot = .done (.ok (some status))) :
    bot = .returned (some status) ∧ ∃ poll, progress = .answered poll status := by
  obtain rfl := h.botFollows.ends returned
  have hat := h.botAt
  cases progress with
  | preparing => exact hat.elim
  | opened => exact hat.elim
  | answered poll other =>
      obtain rfl := Option.some.inj hat
      exact ⟨rfl, poll, rfl⟩

theorem nextOffer {status : Status} (h : Invariant map orders s bot tester progress)
    (returned : s.bot = .done (.ok (some status))) :
    Invariant map orders (s.nextOffer orders) (.sweeping Signal.all) tester .preparing := by
  obtain ⟨rfl, poll, rfl⟩ := h.answered returned
  exact {
    seat := h.seat
    botFollows := Producer.follows_offerAndWait _ _ _
    testerFollows := h.testerFollows
    offered := h.offered
    account := h.account
    lenient := h.lenient
    ledger := h.ledger.nextOffer
    botAt := ⟨rfl, View.cleared_all⟩
    testerAt := h.testerAt.nextOffer }

theorem nextPoll (consumer : Consumer) (h : Invariant map orders s bot tester progress)
    (rests : s.tester = .done ()) :
    Invariant map orders (s.nextPoll consumer) bot (.looking (.ok none)) progress := by
  have hrests := h.testerFollows.ends rests
  have hnew : recordOf (.poll (s.shift + 1)) s.history = [] :=
    h.ledger.unborn _ (Nat.lt_succ_self _)
  have hnil : (PollPhase.looking (.ok none)).Lenient [] :=
    fun hmissed => absurd hmissed not_missed_nil
  exact {
    seat := rfl
    botFollows := h.botFollows
    testerFollows := Program.follows_bind.2
      ((Consumer.follows_poll consumer).mono fun _ _ hends => hends)
    offered := h.offered
    account := hnew.symm ▸ Calm.nil
    lenient := hnew.symm ▸ hnil
    ledger := h.ledger.nextPoll
    botAt := h.botAt.congr rfl rfl rfl rfl
    testerAt := h.testerAt.idle hrests }

/-- Every step of an orderly run keeps the invariant. -/
theorem step {t : State σ} (h : Invariant map orders s bot tester progress)
    (hstep : Orderly model orders s t) :
    ∃ bot tester progress, Invariant map orders t bot tester progress := by
  cases hstep with
  | act acts =>
      cases acts with
      | bot asks served =>
          obtain ⟨after, later, hafter⟩ := h.bot_step asks served
          exact ⟨_, _, _, hafter⟩
      | tester asks served =>
          obtain ⟨after, later, hafter⟩ := h.tester_step asks served
          exact ⟨_, _, _, hafter⟩
  | offer returned => exact ⟨_, _, _, h.nextOffer returned⟩
  | poll consumer rests => exact ⟨_, _, _, h.nextPoll consumer rests⟩

/-- The invariant holds all along an orderly run. -/
theorem run {t : State σ} (h : Invariant map orders s bot tester progress)
    (hrun : Relation.ReflTransGen (Orderly model orders) s t) :
    ∃ bot tester progress, Invariant map orders t bot tester progress := by
  induction hrun with
  | refl => exact ⟨_, _, _, h⟩
  | tail _ hstep ih =>
      obtain ⟨_, _, _, hbefore⟩ := ih
      exact hbefore.step hstep

end Invariant

end Interleaving

end Handoff
