import Hyf.Gateway.Runs

/-!
# Local delivery happens once in a window

The duplicate filter holds the keys committed last, and a message is delivered locally only right
after its key was committed. Two deliveries of one key are therefore separated by a whole window of
other keys.
-/

namespace Hyf

open LoggedSteps

/-- The key an event commits. -/
def GatewayEvent.commit? : GatewayEvent → Option RouterSeenKey
  | committed key => some key
  | _ => none

/-- The keys a stretch of the log commits, in order. -/
def commitsOf {maxLinks maxSeen storeCapacity : ℕ}
    (log : List (Moment maxLinks maxSeen storeCapacity)) : List RouterSeenKey :=
  log.filterMap fun moment => moment.event.commit?

namespace GatewayCore

variable {maxLinks maxSeen storeCapacity : ℕ}
  {answers : LinkId → List UInt8 → TimestampMs → Except GatewayError Unit → Prop}

@[simp] theorem commitsOf_nil :
    commitsOf ([] : List (Moment maxLinks maxSeen storeCapacity)) = [] := rfl

@[simp] theorem commitsOf_append (log log' : List (Moment maxLinks maxSeen storeCapacity)) :
    commitsOf (log ++ log') = commitsOf log ++ commitsOf log' :=
  List.filterMap_append

@[simp] theorem commitsOf_cons (moment : Moment maxLinks maxSeen storeCapacity)
    (log : List (Moment maxLinks maxSeen storeCapacity)) :
    commitsOf (moment :: log) = moment.event.commit?.toList ++ commitsOf log := by
  rw [commitsOf, List.filterMap_cons]
  cases moment.event.commit? <;> rfl

/-- The commands whose success commits the key of `envelope`. -/
def CommitsKeyOf (core : GatewayCore maxLinks maxSeen storeCapacity) (envelope : HyfEnvelopeRef)
    (command : RouterCommand) : Prop :=
  (∃ linkId, command = .send linkId envelope) ∨
    (command = .store (.put envelope) ∧ core.config.policy.allowStoreAndForward = true) ∨
    command = .deliverLocal envelope

/-- A moment that commits nothing and leaves the filter as it is in `core`. -/
def Quiet (core : GatewayCore maxLinks maxSeen storeCapacity)
    (moment : Moment maxLinks maxSeen storeCapacity) : Prop :=
  moment.event.commit? = none ∧ moment.core.router = core.router

/-- What a command does to the filter: nothing, or it succeeds and the key of its envelope is
committed right before it is done. -/
inductive FilterEffect (core : GatewayCore maxLinks maxSeen storeCapacity)
    (command : RouterCommand) (moments : List (Moment maxLinks maxSeen storeCapacity))
    (outcome : Except GatewayError Unit) (core' : GatewayCore maxLinks maxSeen storeCapacity) : Prop
  | unchanged (router_eq : core'.router = core.router)
      (quiet : ∀ moment ∈ moments, core.Quiet moment)
      (duplicate : ∀ envelope, command = .deliverLocal envelope →
        core.router.hasSeen (seenKeyFor envelope) = true)
  | commits {quietly : List (Moment maxLinks maxSeen storeCapacity)} {envelope : HyfEnvelopeRef}
      (moments_eq : moments = quietly ++ [⟨.committed (seenKeyFor envelope), core'⟩])
      (quiet : ∀ moment ∈ quietly, core.Quiet moment)
      (unseen : core.router.hasSeen (seenKeyFor envelope) = false)
      (router_eq : core'.router = core.router.commitSeen envelope) (succeeds : outcome = .ok ())
      (by_command : core'.CommitsKeyOf envelope command)

/-- The three commands that commit do so in the same way, after some quiet moments. -/
theorem filterEffect_commit {core before : GatewayCore maxLinks maxSeen storeCapacity}
    {command : RouterCommand} {envelope : HyfEnvelopeRef}
    {quietly : List (Moment maxLinks maxSeen storeCapacity)}
    (hrouter : before.router = core.router) (hquiet : ∀ moment ∈ quietly, core.Quiet moment)
    (hcommand : (before.commit envelope).CommitsKeyOf envelope command)
    (hdeliver : ∀ other, command = .deliverLocal other → other = envelope) :
    FilterEffect core command (quietly ++ before.commitMoments envelope) (.ok ())
      (before.commit envelope) := by
  by_cases hseen : before.router.hasSeen (seenKeyFor envelope) = true
  · refine .unchanged ?_ ?_ ?_
    · rw [commit, Router.commitSeen_of_hasSeen hseen]
      exact hrouter
    · rwa [commitMoments, if_pos hseen, List.append_nil]
    · intro other hother
      rw [hdeliver other hother, ← hrouter]
      exact hseen
  · refine .commits (by rw [commitMoments, if_neg hseen]) hquiet ?_ ?_ rfl hcommand
    · rw [← hrouter]
      simpa using hseen
    · rw [commit, hrouter]

theorem CommandStep.filterEffect {core core' : GatewayCore maxLinks maxSeen storeCapacity}
    {command : RouterCommand} {moments : List (Moment maxLinks maxSeen storeCapacity)}
    {outcome : Except GatewayError Unit}
    (h : CommandStep answers core command moments outcome core') :
    FilterEffect core command moments outcome core' := by
  have hsend : ∀ linkId bytes nowMs answer, ∀ moment ∈
      [(⟨.sendLinkBytes linkId bytes nowMs answer, core⟩ : Moment maxLinks maxSeen storeCapacity)],
      core.Quiet moment := by
    intro linkId bytes nowMs answer moment hmem
    rw [List.mem_singleton] at hmem
    rw [hmem]
    exact ⟨rfl, rfl⟩
  cases h with
  | sendRefused valid fits answer metrics => exact .unchanged rfl (hsend _ _ _ _) (by simp)
  | sent valid fits answer metrics =>
    rw [← List.singleton_append]
    refine filterEffect_commit ?_ (hsend _ _ _ _) (.inl ⟨_, rfl⟩) (by simp)
    rfl
  | put allowed accepted metrics =>
    rw [← List.nil_append (commitMoments _ _)]
    exact filterEffect_commit rfl (by simp) (.inr (.inl ⟨rfl, allowed⟩)) (by simp)
  | deliverLocal envelope metrics =>
    rw [← List.nil_append (commitMoments _ _)]
    exact filterEffect_commit rfl (by simp) (.inr (.inr rfl)) (by simp)
  | _ => exact .unchanged rfl (by simp) (by simp)

/-! ## Histories -/

/-- The log tells the history of the filter: the filter always remembers the keys committed so far,
every delivery comes right after the commit of its key, and every commit right before the command
that caused it, which succeeded. -/
structure DedupeLog (log : List (Moment maxLinks maxSeen storeCapacity))
    (core : GatewayCore maxLinks maxSeen storeCapacity) : Prop where
  now : core.router.Remembers (commitsOf log)
  always : ∀ before moment after, log = before ++ moment :: after →
    moment.core.router.Remembers (commitsOf (before ++ [moment]))
  delivered : ∀ before envelope outcome core after,
    log = before ++ ⟨.executed (.deliverLocal envelope) outcome, core⟩ :: after →
    ∃ before' core', before = before' ++ [⟨.committed (seenKeyFor envelope), core'⟩]
  committed : ∀ before key core after, log = before ++ ⟨.committed key, core⟩ :: after →
    ∃ envelope command core' after', after = ⟨.executed command (.ok ()), core'⟩ :: after' ∧
      key = seenKeyFor envelope ∧ core'.CommitsKeyOf envelope command

/-- The new events of a step extend the history if they do so by themselves. -/
theorem DedupeLog.append {log moments : List (Moment maxLinks maxSeen storeCapacity)}
    {core core' : GatewayCore maxLinks maxSeen storeCapacity} (h : DedupeLog log core)
    (hnow : core'.router.Remembers (commitsOf (log ++ moments)))
    (halways : ∀ before moment after, moments = before ++ moment :: after →
      moment.core.router.Remembers (commitsOf (log ++ (before ++ [moment]))))
    (hdelivered : ∀ before envelope outcome core after,
      moments = before ++ ⟨.executed (.deliverLocal envelope) outcome, core⟩ :: after →
      ∃ before' core', before = before' ++ [⟨.committed (seenKeyFor envelope), core'⟩])
    (hcommitted : ∀ before key core after, moments = before ++ ⟨.committed key, core⟩ :: after →
      ∃ envelope command core' after', after = ⟨.executed command (.ok ()), core'⟩ :: after' ∧
        key = seenKeyFor envelope ∧ core'.CommitsKeyOf envelope command) :
    DedupeLog (log ++ moments) core' where
  now := hnow
  always before moment after hsplit := by
    rcases append_eq_append_cons hsplit with ⟨rest, hlog, -⟩ | ⟨start, rfl, hnew⟩
    · exact h.always before moment rest hlog
    · rw [List.append_assoc]
      exact halways start moment after hnew
  delivered before envelope outcome c after hsplit := by
    rcases append_eq_append_cons hsplit with ⟨rest, hlog, -⟩ | ⟨start, rfl, hnew⟩
    · exact h.delivered before envelope outcome c rest hlog
    · obtain ⟨before', c', rfl⟩ := hdelivered start envelope outcome c after hnew
      exact ⟨log ++ before', c', by rw [List.append_assoc]⟩
  committed before key c after hsplit := by
    rcases append_eq_append_cons hsplit with ⟨rest, hlog, rfl⟩ | ⟨start, rfl, hnew⟩
    · obtain ⟨envelope, command, c', after', rfl, hkey, hby⟩ := h.committed before key c rest hlog
      exact ⟨envelope, command, c', after' ++ moments, rfl, hkey, hby⟩
    · exact hcommitted start key c after hnew

theorem commitsOf_eq_nil {moments : List (Moment maxLinks maxSeen storeCapacity)}
    (h : ∀ moment ∈ moments, moment.event.commit? = none) : commitsOf moments = [] :=
  List.filterMap_eq_nil_iff.mpr h

/-- Steps that neither commit nor deliver leave the history as it is. -/
theorem DedupeLog.append_quiet {log moments : List (Moment maxLinks maxSeen storeCapacity)}
    {core core' : GatewayCore maxLinks maxSeen storeCapacity} (h : DedupeLog log core)
    (hseen : core'.router.seen = core.router.seen)
    (hnext : core'.router.nextSeen = core.router.nextSeen)
    (hmoments : ∀ moment ∈ moments, moment.event.commit? = none ∧
      moment.core.router.seen = core.router.seen ∧
      moment.core.router.nextSeen = core.router.nextSeen)
    (hdeliver : ∀ envelope outcome c,
      ⟨.executed (.deliverLocal envelope) outcome, c⟩ ∉ moments) :
    DedupeLog (log ++ moments) core' := by
  have hnone : ∀ before moment after, moments = before ++ moment :: after →
      commitsOf (before ++ [moment]) = [] := by
    intro before moment after hsplit
    refine commitsOf_eq_nil fun m hm => (hmoments m ?_).1
    rw [hsplit]
    rcases List.mem_append.mp hm with hbefore | hlast
    · exact List.mem_append_left _ hbefore
    · rw [List.mem_singleton] at hlast
      exact List.mem_append_right _ (hlast ▸ List.mem_cons_self)
  refine h.append ?_ ?_ ?_ ?_
  · rw [commitsOf_append, commitsOf_eq_nil fun m hm => (hmoments m hm).1, List.append_nil]
    exact h.now.congr hseen hnext
  · intro before moment after hsplit
    have hmem : moment ∈ moments := hsplit ▸ List.mem_append_right _ List.mem_cons_self
    rw [commitsOf_append, hnone before moment after hsplit, List.append_nil]
    exact h.now.congr (hmoments moment hmem).2.1 (hmoments moment hmem).2.2
  · intro before envelope outcome c after hsplit
    exact absurd (hsplit ▸ List.mem_append_right _ List.mem_cons_self)
      (hdeliver envelope outcome c)
  · intro before key c after hsplit
    have := (hmoments _ (hsplit ▸ List.mem_append_right _ List.mem_cons_self)).1
    cases this

/-- The events inside a command are not executions. -/
theorem CommandStep.execution_eq_none {core core' : GatewayCore maxLinks maxSeen storeCapacity}
    {command : RouterCommand} {moments : List (Moment maxLinks maxSeen storeCapacity)}
    {outcome : Except GatewayError Unit}
    (h : CommandStep answers core command moments outcome core')
    {moment : Moment maxLinks maxSeen storeCapacity} (hmem : moment ∈ moments) :
    moment.event.execution? = none :=
  List.filterMap_eq_nil_iff.mp h.executionsOf_moments moment hmem

/-- A command of a plan extends the history by at most the key of its envelope. -/
theorem DedupeLog.command {log moments : List (Moment maxLinks maxSeen storeCapacity)}
    {core core' : GatewayCore maxLinks maxSeen storeCapacity} (h : DedupeLog log core)
    {command : RouterCommand} {outcome : Except GatewayError Unit}
    (hadmits : core.router.Admits command)
    (hstep : CommandStep answers core command moments outcome core') :
    DedupeLog (log ++ (moments ++ [⟨.executed command outcome, core'⟩])) core' := by
  cases hstep.filterEffect with
  | unchanged router_eq quiet duplicate =>
    refine h.append_quiet (by rw [router_eq]) (by rw [router_eq]) ?_ ?_
    · intro moment hmem
      rcases List.mem_append.mp hmem with hmoment | hlast
      · obtain ⟨hcommit, hrouter⟩ := quiet moment hmoment
        exact ⟨hcommit, by rw [hrouter], by rw [hrouter]⟩
      · rw [List.mem_singleton] at hlast
        subst hlast
        exact ⟨rfl, by rw [router_eq], by rw [router_eq]⟩
    · intro envelope result c hmem
      rcases List.mem_append.mp hmem with hmoment | hlast
      · cases hstep.execution_eq_none hmoment
      · rw [List.mem_singleton] at hlast
        cases hlast
        have hfresh : core.router.hasSeen (seenKeyFor envelope) = false := hadmits
        rw [duplicate envelope rfl] at hfresh
        cases hfresh
  | @commits quietly envelope moments_eq quiet unseen router_eq succeeds by_command =>
    subst moments_eq succeeds
    have hquietly : commitsOf quietly = [] := commitsOf_eq_nil fun m hm => (quiet m hm).1
    have hafter : core'.router.Remembers (commitsOf log ++ [seenKeyFor envelope]) :=
      router_eq ▸ h.now.commitSeen unseen
    rw [List.append_assoc, List.singleton_append]
    refine h.append ?_ ?_ ?_ ?_
    · simpa [hquietly, GatewayEvent.commit?] using hafter
    · intro before moment after hsplit
      -- the moment is quiet, or the commit, or the end of the command
      rcases append_eq_append_cons hsplit with ⟨rest, hold, -⟩ | ⟨start, rfl, hnew⟩
      · have hmem : ∀ m ∈ before ++ [moment], m ∈ quietly := by
          rw [hold]
          intro m hm
          simp only [List.mem_append, List.mem_cons, List.not_mem_nil, or_false] at hm ⊢
          tauto
        rw [commitsOf_append, commitsOf_eq_nil fun m hm => (quiet m (hmem m hm)).1,
          List.append_nil, (quiet moment (hmem moment (by simp))).2]
        exact h.now
      · rcases pair_eq_append_cons hnew with ⟨rfl, rfl, -⟩ | ⟨rfl, rfl, -⟩
        · simpa [hquietly, GatewayEvent.commit?] using hafter
        · simpa [hquietly, GatewayEvent.commit?] using hafter
    · intro before other result c after hsplit
      rcases append_eq_append_cons hsplit with ⟨rest, hold, -⟩ | ⟨start, rfl, hnew⟩
      · have hmem := hold ▸ List.mem_append_right before List.mem_cons_self
        cases hstep.execution_eq_none (List.mem_append_left _ hmem)
      · rcases pair_eq_append_cons hnew with ⟨rfl, hcommit, -⟩ | ⟨rfl, hlast, -⟩
        · cases hcommit
        · cases hlast
          obtain rfl : other = envelope := by
            rcases by_command with ⟨linkId, hsend⟩ | ⟨hput, -⟩ | hdeliver
            · cases hsend
            · cases hput
            · cases hdeliver
              rfl
          exact ⟨quietly, core', rfl⟩
    · intro before key c after hsplit
      rcases append_eq_append_cons hsplit with ⟨rest, hold, -⟩ | ⟨start, rfl, hnew⟩
      · cases (quiet _ (hold ▸ List.mem_append_right before List.mem_cons_self)).1
      · rcases pair_eq_append_cons hnew with ⟨rfl, hcommit, rfl⟩ | ⟨rfl, hlast, -⟩
        · cases hcommit
          exact ⟨envelope, command, core', [], rfl, rfl, by_command⟩
        · cases hlast

theorem DedupeLog.step {log moments : List (Moment maxLinks maxSeen storeCapacity)}
    {core core' : GatewayCore maxLinks maxSeen storeCapacity} (h : DedupeLog log core)
    (hstep : CoreStep core moments core') : DedupeLog (log ++ moments) core' := by
  cases hstep with
  | metrics metrics => exact h.append_quiet rfl rfl (by simp) (by simp)
  | link set =>
    obtain ⟨-, -, hseen, hnext, -⟩ := Router.setLinkState_eq_ok set
    exact h.append_quiet hseen hnext (by simp) (by simp)
  | observe later =>
    exact h.append_quiet rfl rfl (by simp [GatewayEvent.commit?, observed]) (by simp)
  | expire => exact h.append_quiet rfl rfl (by simp) (by simp)
  | kept messageId executions =>
    exact h.append_quiet rfl rfl (by simp [GatewayEvent.commit?]) (by simp)
  | released releases removed =>
    exact h.append_quiet rfl rfl (by simp [GatewayEvent.commit?]) (by simp)
  | command admits step => exact h.command admits step

theorem dedupeLog_of_run {config : GatewayConfig maxLinks}
    {log : List (Moment maxLinks maxSeen storeCapacity)}
    {core : GatewayCore maxLinks maxSeen storeCapacity} (h : Run config log core) :
    DedupeLog log core := by
  refine (h.invariant ?_ ?_).2
  · intro core hnew
    obtain ⟨hvalidate, -, hseen, -, rfl⟩ := new_eq_ok hnew
    have hpos := (GatewayConfig.capacities_pos_of_validate hvalidate).2.1
    exact ⟨Router.remembers_new _ (by omega), by simp, by simp, by simp⟩
  · intro log core moments core' _ hlog hstep
    exact hlog.step hstep

/-- Between two deliveries of one key a whole window of other keys was committed. -/
theorem DedupeLog.separation {log : List (Moment maxLinks maxSeen storeCapacity)}
    {core : GatewayCore maxLinks maxSeen storeCapacity} (h : DedupeLog log core)
    {before mid after : List (Moment maxLinks maxSeen storeCapacity)}
    {first second : HyfEnvelopeRef} {outcome₁ outcome₂ : Except GatewayError Unit}
    {core₁ core₂ : GatewayCore maxLinks maxSeen storeCapacity}
    (hlog : log = before ++ ⟨.executed (.deliverLocal first) outcome₁, core₁⟩ ::
      (mid ++ ⟨.executed (.deliverLocal second) outcome₂, core₂⟩ :: after))
    (hkey : seenKeyFor first = seenKeyFor second) :
    ∃ keys : List RouterSeenKey, keys.Nodup ∧ keys.length = maxSeen ∧ seenKeyFor first ∉ keys ∧
      keys.Sublist (commitsOf mid) := by
  -- both deliveries come right after the commit of the key
  obtain ⟨before', c₁, rfl⟩ := h.delivered _ first outcome₁ core₁ _ hlog
  have hlog' : log = (before' ++ [⟨.committed (seenKeyFor first), c₁⟩] ++
      ⟨.executed (.deliverLocal first) outcome₁, core₁⟩ :: mid) ++
      ⟨.executed (.deliverLocal second) outcome₂, core₂⟩ :: after := by
    rw [hlog]
    simp
  obtain ⟨mid', c₂, hmid⟩ := h.delivered _ second outcome₂ core₂ after hlog'
  rcases List.eq_nil_or_concat' mid with rfl | ⟨mid, last, rfl⟩
  · have hlast := List.append_inj_right' hmid rfl
    cases hlast
  have hlast : last = ⟨.committed (seenKeyFor second), c₂⟩ := by
    rw [← List.cons_append, ← List.append_assoc] at hmid
    simpa using List.append_inj_right' hmid rfl
  subst hlast
  have hfresh := h.now.fresh
  have hcommits : commitsOf log = commitsOf before' ++ seenKeyFor first ::
      (commitsOf mid ++ seenKeyFor first :: commitsOf after) := by
    rw [hlog, hkey]
    simp [GatewayEvent.commit?]
  rw [hcommits] at hfresh
  obtain ⟨hlen, hnodup, hother⟩ := hfresh.separation
  refine ⟨(commitsOf mid).take maxSeen, hnodup, ?_, hother, ?_⟩
  · rw [List.length_take]
    omega
  · rw [commitsOf_append]
    exact (List.take_sublist _ _).trans (List.sublist_append_left _ _)

/-- **Local delivery happens at most once in the dedupe window.** In every run, two deliveries of a
key are separated by a window of other keys, the filter always holds the last keys committed
without repetition, and a key is committed only by a send, a put or a local delivery that
succeeded. -/
theorem delivers_once_in_window {config : GatewayConfig maxLinks}
    {log : List (Moment maxLinks maxSeen storeCapacity)}
    {core : GatewayCore maxLinks maxSeen storeCapacity} (h : Run config log core) :
    (∀ before mid after first second outcome₁ outcome₂ core₁ core₂,
      log = before ++ ⟨.executed (.deliverLocal first) outcome₁, core₁⟩ ::
        (mid ++ ⟨.executed (.deliverLocal second) outcome₂, core₂⟩ :: after) →
      seenKeyFor first = seenKeyFor second →
      ∃ keys : List RouterSeenKey, keys.Nodup ∧ keys.length = maxSeen ∧
        seenKeyFor first ∉ keys ∧ keys.Sublist (commitsOf mid)) ∧
    (core.router.seen.live.Perm ((commitsOf log).rtake maxSeen) ∧
      ((commitsOf log).rtake maxSeen).Nodup) ∧
    (∀ before moment after, log = before ++ moment :: after →
      moment.core.router.seen.live.Perm ((commitsOf (before ++ [moment])).rtake maxSeen) ∧
        ((commitsOf (before ++ [moment])).rtake maxSeen).Nodup) ∧
    ∀ before key c after, log = before ++ ⟨.committed key, c⟩ :: after →
      ∃ envelope command c' after', after = ⟨.executed command (.ok ()), c'⟩ :: after' ∧
        key = seenKeyFor envelope ∧ c'.CommitsKeyOf envelope command := by
  have hlog := dedupeLog_of_run h
  have hwindow : ∀ {router : Router maxLinks maxSeen} {history : List RouterSeenKey},
      router.Remembers history → router.seen.live.Perm (history.rtake maxSeen) ∧
        (history.rtake maxSeen).Nodup :=
    fun hremembers => ⟨hremembers.represents.live_perm, hremembers.fresh.nodup_rtake⟩
  refine ⟨?_, hwindow hlog.now, ?_, hlog.committed⟩
  · intro before mid after first second outcome₁ outcome₂ core₁ core₂ hsplit hkey
    exact hlog.separation hsplit hkey
  · intro before moment after hsplit
    exact hwindow (hlog.always before moment after hsplit)

def narrowConfig : GatewayConfig 2 := { sampleConfig with router := ⟨2, 1⟩ }

/-- A gateway that remembers a single key. -/
def narrowCore : GatewayCore 2 1 4 where
  config := narrowConfig
  router := Router.new narrowConfig.routerPolicy
  store := Store.new narrowConfig.storePolicy
  metrics := {}
  lastNowMs := 0
  lastDeliveredMessageId := none
  lastDeliveredPayloadLen := 0

theorem new_narrowCore : new narrowConfig = .ok narrowCore := by
  have hvalidate : narrowConfig.validate = .ok () := by decide
  simp only [new, hvalidate, Except.mapError, bind, Except.bind]
  rfl

/-- The world of the small memory after the frames with these messages came in. -/
def receivedLocal : List UInt8 → World 2 1 4 AcceptAll
  | [] => ⟨narrowCore, .mk, []⟩
  | id :: ids => ((perform (.ingestLinkFrame (localFrame id))).run (receivedLocal ids)).state

theorem run_receivedLocal (ids : List UInt8) :
    Run narrowConfig (receivedLocal ids).log (receivedLocal ids).core := by
  induction ids with
  | nil => exact .start new_narrowCore
  | cons id ids ih => exact Run.call ih (.ingestLinkFrame (localFrame id)) AcceptAll .mk

/-- Of four frames the second is a repetition and is dropped. The last one is delivered again,
since another key was committed in between. -/
theorem receivedLocal_delivers_once :
    (∃ before mid after outcome₁ outcome₂ core₁ core₂, (receivedLocal [2, 4, 2, 2]).log =
      before ++ ⟨.executed (.deliverLocal (sampleEnvelope 2 (.node ⟨fillBytes 32 1⟩) 3)) outcome₁,
        core₁⟩ :: (mid ++ ⟨.executed (.deliverLocal (sampleEnvelope 2 (.node ⟨fillBytes 32 1⟩) 3))
          outcome₂, core₂⟩ :: after) ∧
      ∃ keys : List RouterSeenKey, keys.Nodup ∧ keys.length = 1 ∧
        seenKeyFor (sampleEnvelope 2 (.node ⟨fillBytes 32 1⟩) 3) ∉ keys ∧
        keys.Sublist (commitsOf mid)) ∧
    (receivedLocal [2, 4, 2, 2]).core.router.seen.live.Perm
      ((commitsOf (receivedLocal [2, 4, 2, 2]).log).rtake 1) ∧
    commitsOf (receivedLocal [2, 4, 2, 2]).log =
      [seenKeyFor (sampleEnvelope 2 (.node ⟨fillBytes 32 1⟩) 3),
        seenKeyFor (sampleEnvelope 4 (.node ⟨fillBytes 32 1⟩) 3),
        seenKeyFor (sampleEnvelope 2 (.node ⟨fillBytes 32 1⟩) 3)] := by
  obtain ⟨hseparated, hwindow, -, -⟩ := delivers_once_in_window (run_receivedLocal [2, 4, 2, 2])
  refine ⟨?_, hwindow.1, by decide +kernel⟩
  -- the deliveries stand at places 1 and 6 of the log
  have hevents : ∃ dropped, (receivedLocal [2, 4, 2, 2]).log.map Moment.event =
      [.committed (seenKeyFor (sampleEnvelope 2 (.node ⟨fillBytes 32 1⟩) 3))] ++
        .executed (.deliverLocal (sampleEnvelope 2 (.node ⟨fillBytes 32 1⟩) 3)) (.ok ()) ::
          (dropped ++ .executed (.deliverLocal (sampleEnvelope 2 (.node ⟨fillBytes 32 1⟩) 3))
            (.ok ()) :: []) :=
    ⟨(((receivedLocal [2, 4, 2, 2]).log.map Moment.event).drop 2).take 4, by decide +kernel⟩
  obtain ⟨dropped, hevents⟩ := hevents
  obtain ⟨before, rest, hlog, -, hrest⟩ := List.map_eq_append_iff.mp hevents
  obtain ⟨⟨event₁, core₁⟩, rest', rfl, rfl, hrest'⟩ := List.map_eq_cons_iff.mp hrest
  obtain ⟨mid, rest'', rfl, -, hrest''⟩ := List.map_eq_append_iff.mp hrest'
  obtain ⟨⟨event₂, core₂⟩, after, rfl, rfl, -⟩ := List.map_eq_cons_iff.mp hrest''
  exact ⟨before, mid, after, _, _, core₁, core₂, hlog,
    hseparated before mid after _ _ _ _ core₁ core₂ hlog rfl⟩

end GatewayCore

end Hyf
