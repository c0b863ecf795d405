import AudioServer.Foundations.Pools
import AudioServer.Web.DayPage

/-! What stands under the heading of a day: where the detail on the page came from,
and which actions stay shut while it is behind what the page has queued. -/

namespace AudioServer.Web.DayHeading

open AudioServer.Foundations.Pools AudioServer.Foundations.Runs
open AudioServer.Db.Models AudioServer.Api.Responses AudioServer.Web.DayPage
open AudioServer.Web.DetailPage (Caught)

def Headed (p : Page) : Prop :=
  ∀ day ∈ p.day, ∀ shown ∈ p.rendered, shown.response.day = day ∧
    ∀ commit ∈ p.commits, commit.day = day → commit.moment < shown.askedAt

instance (p : Page) : Decidable (Headed p) :=
  inferInstanceAs (Decidable (∀ day ∈ p.day, ∀ shown ∈ p.rendered, _ ∧ ∀ commit ∈ p.commits, _))

def issuedAt : Task → Option ℕ
  | .load _ _ issuedAt | .refresh _ _ issuedAt => some issuedAt
  | _ => none

def action : Task → Option Action
  | .refresh action _ _ | .request action _ _ => some action
  | _ => none

def Committed (commits : List Commit) (moment : ℕ) (a : Action) (day : Day) : Prop :=
  ∃ commit ∈ commits, commit.action = a ∧ commit.day = day ∧ commit.moment < moment

structure CallOk (clock changes : ℕ) (commits : List Commit) (told : List Told) (call : Call) :
    Prop where
  asked : call.askedAt < clock
  issued : ∀ count ∈ issuedAt call.task, count ≤ changes ∧
    (count = changes → ∀ t ∈ told, t.moment < call.askedAt)
  carried : ∀ a day, call.task = .request a day true → Committed commits clock a day

structure ShownOk (clock : ℕ) (told : List Told) (shown : Shown) : Prop where
  about : shown.under = some shown.response.day
  taken : shown.takenAt < clock
  fresh : ∀ t ∈ told, t.moment < shown.takenAt → t.moment < shown.askedAt

structure ToldOk (clock visit : ℕ) (commits : List Commit) (t : Told) : Prop where
  past : t.moment < clock
  visited : t.visit ≤ visit
  committed : Committed commits t.moment t.action t.day

/-- After the last request the page was told of, while the route stays, the day has been read since, or
could not be read, or its read is on the way. -/
def Reloads (p : Page) (flight : List Call) : Prop :=
  ∀ t ∈ p.told.getLast?, t.visit = p.visit →
    (∀ shown ∈ p.detail, t.moment < shown.askedAt) ∨ p.pendingReload ∨
      ∃ call ∈ flight, ∃ day, call.task = .refresh t.action day p.changes ∧ p.day = some day

structure Sound (p : Page) : Prop where
  calls : ∀ call ∈ p.flight, CallOk p.clock p.changes p.commits p.told call
  shown : ∀ shown ∈ p.detail, ShownOk p.clock p.told shown
  told : ∀ t ∈ p.told, ToldOk p.clock p.visit p.commits t

structure Kept (p : Page) : Prop extends Sound p where
  acting : ∀ a, p.flight.countP (fun call => action call.task = some a) = (p.busy a).toNat
  reloads : Reloads p p.flight

section Steps

variable {p : Page}

lemma Sound.plain (h : Sound p) (days : Option (List Day)) (loading : Bool) (error : Option String)
    (notice : Option Notice) (timer left : Bool) (run : ℕ) :
    Sound { p with
      days := days, loading := loading, error := error, notice := notice, timer := timer, left := left
      run := run } :=
  ⟨h.calls, h.shown, h.told⟩

lemma Kept.plain (h : Kept p) (days : Option (List Day)) (loading : Bool) (error : Option String)
    (notice : Option Notice) (timer left : Bool) (run : ℕ) :
    Kept { p with
      days := days, loading := loading, error := error, notice := notice, timer := timer, left := left
      run := run } :=
  ⟨h.toSound.plain days loading error notice timer left run, h.acting, h.reloads⟩

section Later

variable {clock changes visit : ℕ} {commits : List Commit} {told : List Told}

lemma Committed.mono {a : Action} {day : Day} {moment moment' : ℕ} {more : List Commit}
    (h : Committed commits moment a day) (hle : moment ≤ moment') :
    Committed (commits ++ more) moment' a day := by
  obtain ⟨commit, hc, haction, hday, hmoment⟩ := h
  exact ⟨commit, List.mem_append_left _ hc, haction, hday, by omega⟩

lemma CallOk.later {call : Call} (h : CallOk clock changes commits told call) (more : List Commit) :
    CallOk (clock + 1) changes (commits ++ more) told call :=
  ⟨Nat.lt_succ_of_lt h.asked, h.issued, fun a day htask =>
    (h.carried a day htask).mono (Nat.le_succ _)⟩

lemma ShownOk.later {shown : Shown} (h : ShownOk clock told shown) : ShownOk (clock + 1) told shown :=
  ⟨h.about, Nat.lt_succ_of_lt h.taken, h.fresh⟩

lemma ToldOk.later {t : Told} (h : ToldOk clock visit commits t) (more : List Commit) :
    ToldOk (clock + 1) visit (commits ++ more) t :=
  ⟨Nat.lt_succ_of_lt h.past, h.visited, h.committed.mono (Nat.le_refl _)⟩

end Later

lemma Sound.later (h : Sound p) (more : List Commit) :
    Sound { p with clock := p.clock + 1, commits := p.commits ++ more } :=
  ⟨fun call hc => (h.calls call hc).later more, fun shown hs => (h.shown shown hs).later,
    fun t ht => (h.told t ht).later more⟩

lemma Sound.send {task : Task} (h : Sound p) (hissued : ∀ count ∈ issuedAt task, count = p.changes)
    (hnew : ∀ a day, task ≠ .request a day true) : Sound (p.send task) := by
  have hlater := h.later []
  rw [List.append_nil] at hlater
  refine ⟨?_, hlater.shown, hlater.told⟩
  intro call hc
  rcases List.mem_append.mp hc with hc | hc
  · exact hlater.calls call hc
  · rw [List.mem_singleton.mp hc]
    refine ⟨Nat.lt_succ_self _, ?_, fun a day htask => absurd htask (hnew a day)⟩
    intro count hcount
    have hsame := hissued count hcount
    exact ⟨hsame.le, fun _ t ht => (h.told t ht).past⟩

lemma Kept.send {task : Task} (h : Kept p) (hissued : ∀ count ∈ issuedAt task, count = p.changes)
    (haction : action task = none) : Kept (p.send task) := by
  have hnew : ∀ a day, task ≠ .request a day true := by
    rintro a day rfl
    cases haction
  refine ⟨h.toSound.send hissued hnew, ?_, ?_⟩
  · intro a
    have hnone : [(⟨task, p.clock⟩ : Call)].countP (fun call => action call.task = some a) = 0 := by
      simp [haction]
    rw [Page.send, List.countP_append, hnone]
    exact h.acting a
  · intro t ht hvisit
    refine (h.reloads t ht hvisit).imp_right (Or.imp_right ?_)
    rintro ⟨call, hc, htask⟩
    exact ⟨call, List.mem_append_left _ hc, htask⟩

lemma Kept.load (h : Kept p) : Kept p.load := by
  rw [Page.load]
  split
  · apply h.send
    · rintro _ ⟨⟩
      rfl
    · rfl
  · exact h

lemma Kept.pollEffect (h : Kept p) : Kept p.pollEffect := by
  rw [Page.pollEffect]
  split
  · exact (h.plain p.days true p.error p.notice false p.left (p.run + 1)).load
  · exact h.plain p.days p.loading p.error p.notice false p.left (p.run + 1)

lemma Kept.rerender {before : Page} (h : Kept p) : Kept (p.rerender before) := by
  rw [Page.rerender]
  split
  · exact h
  · exact h.pollEffect

lemma kept_blank (day : Option Day) : Kept (.blank day) := by
  refine ⟨⟨nofun, nofun, nofun⟩, ?_, nofun⟩
  intro a
  cases a <;> rfl

lemma Kept.moved (h : Kept p) (day : Option Day) : Kept ({ p with day := day }.listDaysEffect) := by
  have hvisited : Kept { p with day := day, visit := p.visit + 1 } := by
    refine ⟨⟨h.calls, h.shown, ?_⟩, h.acting, ?_⟩
    · intro t ht
      have htold := h.told t ht
      exact ⟨htold.past, Nat.le_succ_of_le htold.visited, htold.committed⟩
    · intro t ht hvisit
      have htold := (h.told t (List.mem_of_getLast? ht)).visited
      have hnow : t.visit = p.visit + 1 := hvisit
      omega
  exact hvisited.send nofun rfl

lemma Kept.moveTo (h : Kept p) (day : Option Day) : Kept (p.moveTo day) := by
  rw [Page.moveTo]
  split
  · exact h
  · have hmoved := h.moved day
    exact (hmoved.plain _ _ _ none _ _ _).pollEffect

lemma kept_mount (day : Option Day) : Kept (.mount day) :=
  ((kept_blank day).moved day).pollEffect

section Busy

variable {a : Action} {busy : Bool}

lemma setBusy_flight : (p.setBusy a busy).flight = p.flight := by
  cases a <;> rfl

lemma setBusy_left : (p.setBusy a busy).left = p.left := by
  cases a <;> rfl

lemma setBusy_busy (b : Action) : (p.setBusy a busy).busy b = if b = a then busy else p.busy b := by
  cases a <;> cases b <;> rfl

lemma Sound.setBusy (h : Sound p) : Sound (p.setBusy a busy) := by
  cases a <;> exact ⟨h.calls, h.shown, h.told⟩

lemma Reloads.setBusy {flight : List Call} (h : Reloads p flight) :
    Reloads (p.setBusy a busy) flight := by
  cases a <;> exact h

end Busy

lemma Sound.takeIn {response : DayDetailResponse} {askedAt : ℕ} (h : Sound p)
    (habout : p.day = some response.day) (hasked : ∀ t ∈ p.told, t.moment < askedAt) :
    Sound (p.takeIn response askedAt) := by
  have hlater := h.later []
  rw [List.append_nil] at hlater
  refine ⟨hlater.calls, ?_, hlater.told⟩
  rintro shown ⟨⟩
  exact ⟨habout, Nat.lt_succ_self _, fun t ht _ => hasked t ht⟩

lemma reloads_takeIn {response : DayDetailResponse} {askedAt : ℕ} {flight : List Call}
    (hasked : ∀ t ∈ p.told, t.moment < askedAt) : Reloads (p.takeIn response askedAt) flight := by
  intro t ht _
  left
  rintro shown ⟨⟩
  exact hasked t (List.mem_of_getLast? ht)

lemma Kept.takeIn {response : DayDetailResponse} {askedAt : ℕ} (h : Kept p)
    (habout : p.day = some response.day) (hasked : ∀ t ∈ p.told, t.moment < askedAt) :
    Kept (p.takeIn response askedAt) :=
  ⟨h.toSound.takeIn habout hasked, h.acting, reloads_takeIn hasked⟩

section Answered

variable {k : ℕ} {call : Call} {a : Action}

lemma Sound.erased (h : Sound p) : Sound { p with flight := p.flight.eraseIdx k } :=
  ⟨fun call hc => h.calls call (List.mem_of_mem_eraseIdx hc), h.shown, h.told⟩

lemma Reloads.erased (h : Reloads p p.flight) (hk : p.flight[k]? = some call)
    (hne : ∀ b day, call.task = .refresh b day p.changes → p.day ≠ some day) :
    Reloads { p with flight := p.flight.eraseIdx k } (p.flight.eraseIdx k) := by
  intro t ht hvisit
  refine (h t ht hvisit).imp_right (Or.imp_right ?_)
  rintro ⟨other, hother, day, htask, hday⟩
  refine ⟨other, mem_eraseIdx_ne hk hother ?_, day, htask, hday⟩
  rintro rfl
  exact hne _ day htask hday

lemma Kept.erased (h : Kept p) (hk : p.flight[k]? = some call) (haction : action call.task = none) :
    Kept { p with flight := p.flight.eraseIdx k } := by
  refine ⟨h.toSound.erased, ?_, h.reloads.erased hk ?_⟩
  · intro b
    have hcount := countP_eraseIdx (p := fun call => decide (action call.task = some b)) hk
    have hacting := h.acting b
    simp only [haction, reduceCtorEq, decide_false, Bool.toNat_false, Nat.add_zero] at hcount
    exact hcount.trans hacting
  · intro b day htask
    rw [htask] at haction
    cases haction

lemma Kept.ended {q : Page} (h : Kept p) (hk : p.flight[k]? = some call)
    (haction : action call.task = some a) (hsound : Sound q) (hreloads : Reloads q q.flight)
    (hflight : q.flight = p.flight.eraseIdx k) (hbusy : ∀ b, q.busy b = p.busy b) :
    Kept (q.setBusy a false) := by
  refine ⟨hsound.setBusy, ?_, ?_⟩
  · intro b
    have hcount := countP_eraseIdx (p := fun call => decide (action call.task = some b)) hk
    have hacting := h.acting b
    rw [setBusy_flight, hflight, setBusy_busy]
    by_cases hb : b = a
    · subst hb
      simp only [haction, decide_true, Bool.toNat_true] at hcount
      have hone : (p.busy b).toNat ≤ 1 := Bool.toNat_le _
      rw [if_pos rfl, Bool.toNat_false]
      omega
    · have hother : ¬ (some a = some b) := fun he => hb (Option.some.inj he).symm
      simp only [haction, hother, decide_false, Bool.toNat_false, Nat.add_zero] at hcount
      rw [if_neg hb, hbusy, ← hacting]
      exact hcount
  · rw [setBusy_flight]
    exact hreloads.setBusy

lemma Kept.asked_after (h : Kept p) (hk : p.flight[k]? = some call) {day : Day} {count : ℕ}
    (hissued : issuedAt call.task = some count) (hcurrent : p.current day count) :
    ∀ t ∈ p.told, t.moment < call.askedAt :=
  ((h.calls call (List.mem_of_getElem? hk)).issued count hissued).2 hcurrent.2.symm

lemma Kept.listDaysSettled (h : Kept p) (visit : ℕ) (reply : Reply) :
    Kept (p.listDaysSettled visit reply) := by
  cases reply with
  | days items =>
    simp only [Page.listDaysSettled]
    split
    · have hlisted := h.plain (some items) p.loading p.error p.notice p.timer p.left p.run
      split
      · exact hlisted
      · exact hlisted.moveTo _
      · exact h.plain (some []) false p.error p.notice p.timer p.left p.run
    · exact h
  | failed caught =>
    simp only [Page.listDaysSettled]
    split
    · split
      · exact h.plain p.days p.loading p.error p.notice p.timer true p.run
      · exact h.plain p.days false (some "days.loadError") p.notice p.timer p.left p.run
    · exact h
  | detail response => exact h
  | queued ids skipped => exact h

lemma Kept.loadSettled (h : Kept p) {day : Day} {run count askedAt : ℕ} {reply : Reply}
    (hreply : reply.Answers (.load day run count))
    (hasked : p.current day count → ∀ t ∈ p.told, t.moment < askedAt) :
    Kept (p.loadSettled day run count askedAt reply) := by
  have hdone := h.plain p.days false p.error p.notice p.running p.left p.run
  cases reply with
  | detail response =>
    simp only [Page.loadSettled]
    split
    · split
      · rename_i _ hcurrent
        have habout : p.day = some response.day := by rw [hcurrent.1, show response.day = day from hreply]
        exact (hdone.takeIn habout (hasked hcurrent)).rerender
      · exact hdone
    · exact h
  | failed caught =>
    simp only [Page.loadSettled]
    split
    · split
      · exact h.plain p.days p.loading p.error p.notice p.timer true p.run
      · split
        · exact h.plain p.days false (some "days.loadError") p.notice p.running p.left p.run
        · exact hdone
    · exact h
  | days items => exact h
  | queued ids skipped => exact h

lemma Kept.refreshSettled (h : Kept p) {day : Day} {count : ℕ} {reply : Reply}
    (hk : p.flight[k]? = some call) (htask : call.task = .refresh a day count)
    (hreply : reply.Answers call.task)
    (hleft : ({ p with flight := p.flight.eraseIdx k }.refreshSettled a day count call.askedAt
      reply).left = false) :
    Kept ({ p with flight := p.flight.eraseIdx k }.refreshSettled a day count call.askedAt reply) := by
  have haction : action call.task = some a := by rw [htask]; rfl
  have hissued : issuedAt call.task = some count := by rw [htask]; rfl
  have hsound := h.toSound.erased (k := k)
  have hdropped (hcurrent : ¬ p.current day count) :
      Kept ({ p with flight := p.flight.eraseIdx k }.setBusy a false) := by
    refine h.ended hk haction hsound (h.reloads.erased hk ?_) rfl (fun _ => rfl)
    intro b d hrefresh hday
    rw [htask] at hrefresh
    cases hrefresh
    exact hcurrent ⟨hday, rfl⟩
  rw [htask] at hreply
  cases reply with
  | detail response =>
    simp only [Page.refreshSettled]
    split
    · rename_i hcurrent
      have hasked := h.asked_after hk hissued hcurrent
      have habout : p.day = some response.day := by rw [hcurrent.1, show response.day = day from hreply]
      exact (h.ended hk haction (hsound.takeIn habout hasked) (reloads_takeIn hasked) rfl
        (fun _ => rfl)).rerender
    · rename_i hcurrent
      exact hdropped hcurrent
  | failed caught =>
    simp only [Page.refreshSettled] at hleft ⊢
    split at hleft
    · rw [setBusy_left] at hleft
      cases hleft
    · rename_i hstatus
      rw [if_neg hstatus]
      split
      · have hfailed : Sound { p with
            flight := p.flight.eraseIdx k, error := some "days.loadError", pendingReload := true } :=
          ⟨hsound.calls, hsound.shown, hsound.told⟩
        have hshut := h.ended hk haction hfailed (fun t _ _ => .inr (.inl rfl)) rfl (fun _ => rfl)
        exact hshut.rerender
      · rename_i hcurrent
        exact hdropped hcurrent
  | days items => cases hreply
  | queued ids skipped => cases hreply

lemma Sound.tell (h : Sound p) {a : Action} {day : Day} (hc : Committed p.commits p.clock a day) :
    Sound (p.tell a day) := by
  have hlater := h.later []
  rw [List.append_nil] at hlater
  refine ⟨?_, ?_, ?_⟩
  · intro call hcall
    have hold := hlater.calls call hcall
    refine ⟨hold.asked, ?_, hold.carried⟩
    intro count hcount
    have hle : count ≤ p.changes := (hold.issued count hcount).1
    refine ⟨Nat.le_succ_of_le hle, ?_⟩
    intro hsame
    have hnext : count = p.changes + 1 := hsame
    omega
  · intro shown hs
    have hshown := h.shown shown hs
    refine ⟨hshown.about, Nat.lt_succ_of_lt hshown.taken, ?_⟩
    intro t ht htaken
    rcases List.mem_append.mp ht with ht | ht
    · exact hshown.fresh t ht htaken
    · rw [List.mem_singleton.mp ht] at htaken
      exact absurd htaken (Nat.lt_asymm hshown.taken)
  · intro t ht
    rcases List.mem_append.mp ht with ht | ht
    · exact hlater.told t ht
    · rw [List.mem_singleton.mp ht]
      exact ⟨Nat.lt_succ_self _, Nat.le_refl _, hc⟩

lemma Kept.requestSettled (h : Kept p) {day : Day} {committed : Bool} {reply : Reply}
    (hk : p.flight[k]? = some call) (htask : call.task = .request a day committed)
    (hreply : reply.Answers call.task)
    (hleft : ({ p with flight := p.flight.eraseIdx k }.requestSettled a day reply).left = false) :
    Kept ({ p with flight := p.flight.eraseIdx k }.requestSettled a day reply) := by
  have haction : action call.task = some a := by rw [htask]; rfl
  have hsound := h.toSound.erased (k := k)
  have hreloads : Reloads { p with flight := p.flight.eraseIdx k } (p.flight.eraseIdx k) := by
    apply h.reloads.erased hk
    intro b d hrefresh
    rw [htask] at hrefresh
    cases hrefresh
  have hended := h.ended hk haction hsound hreloads rfl (fun _ => rfl)
  rw [htask] at hreply
  cases reply with
  | queued ids skipped =>
    simp only [Page.requestSettled]
    split
    · rename_i hday
      refine ⟨?_, ?_, ?_⟩
      · have hcarried := (h.calls call (List.mem_of_getElem? hk)).carried a day
        rw [show committed = true from hreply] at htask
        have htold := (hsound.tell (hcarried htask)).plain p.days p.loading p.error
          (some (Page.queuedNotice ids skipped a)) p.timer p.left p.run
        apply htold.send
        · rintro _ ⟨⟩
          rfl
        · exact fun _ _ => nofun
      · intro b
        have hcount := countP_eraseIdx (p := fun call => decide (action call.task = some b)) hk
        have hsent : [(⟨.refresh a day (p.changes + 1), p.clock + 1⟩ : Call)].countP
            (fun call => decide (action call.task = some b)) = (decide (some a = some b)).toNat := by
          by_cases hb : some a = some b <;> simp [action, hb]
        rw [haction] at hcount
        show (p.flight.eraseIdx k ++ [(⟨.refresh a day (p.changes + 1), p.clock + 1⟩ : Call)]).countP
          (fun call => decide (action call.task = some b)) = (p.busy b).toNat
        rw [List.countP_append, hsent, hcount, h.acting b]
      · intro t ht _
        have hlast : (p.told ++ [(⟨a, day, p.visit, p.clock⟩ : Told)]).getLast? = some t := ht
        rw [List.getLast?_concat] at hlast
        cases hlast
        right
        right
        exact ⟨_, List.mem_append_right _ (List.mem_singleton_self _), day, rfl, hday⟩
    · exact hended
  | failed caught =>
    simp only [Page.requestSettled] at hleft ⊢
    split at hleft
    · rw [setBusy_left] at hleft
      cases hleft
    · rename_i hstatus
      rw [if_neg hstatus]
      split
      · exact h.ended hk haction ⟨hsound.calls, hsound.shown, hsound.told⟩ hreloads rfl (fun _ => rfl)
      · exact hended
  | days items => cases hreply
  | detail response => cases hreply

lemma Kept.settle (h : Kept p) {reply : Reply} (hk : p.flight[k]? = some call)
    (hreply : reply.Answers call.task)
    (hleft : ({ p with flight := p.flight.eraseIdx k }.settle reply call).left = false) :
    Kept ({ p with flight := p.flight.eraseIdx k }.settle reply call) := by
  rw [Page.settle] at hleft ⊢
  cases htask : call.task with
  | listDays visit => exact (h.erased hk (by rw [htask]; rfl)).listDaysSettled visit reply
  | load day run count =>
    rw [htask] at hreply
    apply (h.erased hk (by rw [htask]; rfl)).loadSettled hreply
    intro hcurrent
    exact h.asked_after hk (by rw [htask]; rfl) hcurrent
  | refresh a day count =>
    rw [htask] at hleft
    exact h.refreshSettled hk htask hreply hleft
  | request a day committed =>
    rw [htask] at hleft
    exact h.requestSettled hk htask hreply hleft

end Answered

lemma busy_of_disabled {a : Action} (h : p.disabled a = false) : p.busy a = false := by
  cases a with
  | generate =>
    simp only [Page.disabled, Bool.or_eq_false_iff] at h
    exact h.1.1
  | analysePending =>
    simp only [Page.disabled, Bool.or_eq_false_iff] at h
    exact h.1

lemma Kept.press (h : Kept p) {a : Action} (hidle : p.disabled a = false) : Kept (p.press a) := by
  rw [Page.press]
  split
  · rename_i day hday
    have hsound : Sound { p.setBusy a true with notice := none } :=
      ⟨h.toSound.setBusy.calls, h.toSound.setBusy.shown, h.toSound.setBusy.told⟩
    have hreloads : Reloads (p.setBusy a true) (p.setBusy a true).flight := by
      rw [setBusy_flight]
      exact h.reloads.setBusy
    refine ⟨hsound.send nofun (fun _ _ => nofun), ?_, ?_⟩
    · intro b
      have hsent : [(⟨.request a day false, (p.setBusy a true).clock⟩ : Call)].countP
          (fun call => decide (action call.task = some b)) = (decide (some a = some b)).toNat := by
        by_cases hb : some a = some b <;> simp [action, hb]
      show ((p.setBusy a true).flight ++
        [(⟨.request a day false, (p.setBusy a true).clock⟩ : Call)]).countP
          (fun call => decide (action call.task = some b)) = ((p.setBusy a true).busy b).toNat
      rw [List.countP_append, hsent, setBusy_flight, h.acting b, setBusy_busy]
      by_cases hb : b = a
      · subst hb
        simp [busy_of_disabled hidle]
      · have hother : ¬ (some a = some b) := fun he => hb (Option.some.inj he).symm
        simp [hb, hother]
    · intro t ht hvisit
      refine (hreloads t ht hvisit).imp_right (Or.imp_right ?_)
      rintro ⟨call, hc, hcall⟩
      exact ⟨call, List.mem_append_left _ hc, hcall⟩
  · exact h

lemma Kept.commit (h : Kept p) (k : ℕ) : Kept (p.commit k) := by
  rw [Page.commit]
  split
  · rename_i a day committed askedAt hk
    have hrequest := h.calls _ (List.mem_of_getElem? hk)
    have hlater := h.toSound.later [⟨a, day, p.clock⟩]
    refine ⟨⟨?_, hlater.shown, hlater.told⟩, ?_, ?_⟩
    · intro call hc
      rcases List.mem_or_eq_of_mem_set hc with hc | rfl
      · exact hlater.calls call hc
      · refine ⟨Nat.lt_succ_of_lt hrequest.asked, nofun, ?_⟩
        rintro _ _ ⟨⟩
        exact ⟨_, List.mem_append_right _ (List.mem_singleton_self _), rfl, rfl, Nat.lt_succ_self _⟩
    · intro b
      have hcount := countP_set (a := ⟨.request a day true, askedAt⟩)
        (p := fun call : Call => decide (action call.task = some b)) hk
      exact (Nat.add_right_cancel hcount).trans (h.acting b)
    · intro t ht hvisit
      refine (h.reloads t ht hvisit).imp_right (Or.imp_right ?_)
      rintro ⟨call, hc, d, htask, hday⟩
      refine ⟨call, mem_set_ne hk hc ?_, d, htask, hday⟩
      rintro rfl
      cases htask
  · exact h

lemma step_kept {p' : Page} {act : DayAct} (h : Kept p) (hstep : DayStep p act p')
    (hleft : p'.left = false) : Kept p' := by
  obtain ⟨hallowed, rfl⟩ := hstep
  cases act with
  | moveTo day => exact h.moveTo day
  | tick => exact (h.plain p.days p.loading p.error p.notice false p.left p.run).load
  | press a => exact h.press hallowed.2.2
  | commit k => exact h.commit k
  | arrive k reply =>
    obtain ⟨_, call, hk, hreply⟩ := hallowed
    rw [Page.perform, hk] at hleft ⊢
    exact h.settle hk hreply hleft

lemma allowed_left {act : DayAct} (h : act.Allowed p) : p.left = false := by
  cases act with
  | moveTo day => exact h
  | tick => exact h.1
  | press a => exact h.1
  | commit k => exact h.1
  | arrive k reply => exact h.1

lemma run_kept {day : Option Day} {events : List (Event Page DayAct)}
    (hrun : DayRun (.mount day) events p) (hleft : p.left = false) : Kept p := by
  have hkeeps := hrun.keeps (fun p => p.left = false → Kept p) ?_ (fun _ => kept_mount day)
  · exact hkeeps hleft
  · intro p act p' h hstep
    exact step_kept (h (allowed_left hstep.1)) hstep

lemma rendered_some {shown : Shown} (h : p.rendered = some shown) :
    p.left = false ∧ p.detail = some shown := by
  rw [Page.rendered] at h
  split at h
  · cases h
  · rename_i hopen
    simp only [not_or, Bool.not_eq_true] at hopen
    exact ⟨hopen.1, h⟩

lemma Kept.disabled (h : Kept p) {t : Told} (hlast : t ∈ p.told.getLast?) (hvisit : t.visit = p.visit)
    {shown : Shown} (hshown : p.detail = some shown) (hbehind : shown.askedAt ≤ t.moment) :
    p.disabled t.action := by
  rcases h.reloads t hlast hvisit with hfresh | hpending | ⟨call, hc, day, htask, _⟩
  · have hafter := hfresh shown hshown
    omega
  · cases t.action <;> simp [Page.disabled, hpending]
  · have haction : action call.task = some t.action := by rw [htask]; rfl
    have hpos : 0 < p.flight.countP (fun call => action call.task = some t.action) :=
      List.countP_pos_iff.mpr ⟨call, hc, decide_eq_true haction⟩
    have hbusy : p.busy t.action = true := by
      rw [h.acting] at hpos
      cases hb : p.busy t.action with
      | false =>
        rw [hb] at hpos
        cases hpos
      | true => rfl
    cases hact : t.action <;> rw [hact] at hbusy <;> simp_all [Page.disabled, Page.busy]

end Steps

/-- In any run, a detail on the page that was taken in under the day of the heading is that day's, and
was asked for after every request the page had been told of by then. A request it is told of later
leaves the detail where it is; until it is read again, and while the route stays, the action is shut. -/
theorem rendered_detail {start : Option Day} {p : Page} {events : List (Event Page DayAct)}
    (hrun : DayRun (.mount start) events p) {shown : Shown} (hshown : p.rendered = some shown)
    {day : Day} (hday : p.day = some day) :
    (shown.under = p.day → shown.response.day = day) ∧
      (∀ t ∈ p.told, Committed p.commits t.moment t.action t.day ∧
        (t.moment < shown.takenAt → t.moment < shown.askedAt)) ∧
      ∀ t ∈ p.told.getLast?, t.visit = p.visit → shown.askedAt ≤ t.moment → p.disabled t.action := by
  obtain ⟨hleft, hdetail⟩ := rendered_some hshown
  have h := run_kept hrun hleft
  have hok := h.shown shown hdetail
  refine ⟨?_, ?_, ?_⟩
  · intro hunder
    rw [hday, hok.about] at hunder
    exact Option.some.inj hunder
  · intro t ht
    exact ⟨(h.told t ht).committed, hok.fresh t ht⟩
  · intro t hlast hvisit hbehind
    exact h.disabled hlast hvisit hdetail hbehind

section Samples

def sampleDetail (day : Day) (active : List RecordingId) : DayDetailResponse :=
  ⟨day, [⟨1, .completed⟩], [], active, none, false, none⟩

def batchQueued : List DayAct :=
  [.arrive 0 (.days [6, 5]), .arrive 0 (.detail (sampleDetail 5 [])), .press .analysePending,
    .commit 0, .arrive 0 (.queued [1] 0)]

def movedOn : List DayAct :=
  [.arrive 1 (.detail (sampleDetail 5 [])), .moveTo (some 6), .arrive 2 (.failed .other)]

def sampleDay (acts : List DayAct) : Page := acts.foldl Page.perform (.mount (some 5))

lemma sample_run (acts : List DayAct)
    (h : AllAllowed DayAct.Allowed Page.perform (.mount (some 5)) acts) :
    DayRun (.mount (some 5)) (trail Page.perform (.mount (some 5)) acts) (sampleDay acts) :=
  run_trail DayAct.Allowed Page.perform h

theorem rendered_detail_after_batch :
    ∃ events p shown, DayRun (.mount (some 5)) events p ∧ p.rendered = some shown ∧
      shown.response.day = 5 ∧ p.told.length = 1 ∧ ∀ t ∈ p.told, t.moment < shown.askedAt := by
  have hrun := sample_run (batchQueued ++ [.arrive 0 (.detail (sampleDetail 5 [1]))]) (by decide +kernel)
  have hdetail := rendered_detail hrun
    (show _ = some (⟨sampleDetail 5 [1], 6, 7, some 5⟩ : Shown) by decide +kernel)
    (show _ = some (5 : Day) by decide +kernel)
  refine ⟨_, _, _, hrun, by decide +kernel, hdetail.1 (by decide +kernel), by decide +kernel, ?_⟩
  intro t ht
  have htaken : ∀ t ∈ (sampleDay (batchQueued ++ [.arrive 0 (.detail (sampleDetail 5 [1]))])).told,
      t.moment < 7 := by
    decide +kernel
  exact (hdetail.2.1 t ht).2 (htaken t ht)

theorem rendered_detail_behind :
    (∃ events p, DayRun (.mount (some 5)) events p ∧ p.day = some 5 ∧
      p.rendered.map (·.response.day) = some 5 ∧ ¬ Headed p) ∧
    ∃ events p, DayRun (.mount (some 5)) events p ∧ p.day = some 6 ∧
      p.rendered.map (·.response.day) = some 5 ∧ ¬ Headed p := by
  have hqueued := sample_run batchQueued (by decide +kernel)
  have hmoved := sample_run movedOn (by decide +kernel)
  exact ⟨⟨_, _, hqueued, by decide +kernel, by decide +kernel, by decide +kernel⟩,
    ⟨_, _, hmoved, by decide +kernel, by decide +kernel, by decide +kernel⟩⟩

end Samples

end AudioServer.Web.DayHeading
