import AudioServer.Worker.OneOutcome
import AudioServer.Worker.PipelineProtocol
import Mathlib.Tactic.IntervalCases

/-! Workers at their jobs: what each processor asks, between everything else that happens to the
queue. -/

namespace AudioServer.Worker.ProcessingRuns

open AudioServer.Foundations.Effects AudioServer.Foundations.Runs AudioServer.Foundations.Scripts
open AudioServer.Foundations.Strings AudioServer.Db.Models AudioServer.Jobs.Queue
open AudioServer.Jobs.Fence AudioServer.Jobs.Effects AudioServer.Jobs.Calls
open AudioServer.Services.Transactions AudioServer.Services.Consistency
open AudioServer.Worker.RunOnce AudioServer.Worker.OneOutcome
open AudioServer.Worker.JobProcessor AudioServer.Worker.PipelineProtocol

structure Works where
  crew : Crew
  scripts : List (Dialogue Produced)
  heard : List (ℕ × Reply)

def Works.init (settings : Option ProcessingSettings) : Works := ⟨.init settings, [], []⟩

def claims (w : Crew) : List ClaimedJob := w.runs.map (·.claim)

def repliesTo (i : ℕ) (heard : List (ℕ × Reply)) : List Reply :=
  (heard.filter (fun asked => asked.1 = i)).map (·.2)

def outcome {α : Type} : EStateM.Result Raised Store α → Except Raised α
  | .ok a _ => .ok a
  | .error e _ => .error e

def progressAnswer (w : Crew) (run : JobRun) (stage : JobStage) (now : Instant) (fate : Fate Raised) :
    Except Raised Unit :=
  if run.claimLost then .error .claimLost
  else if stage = .completed then
    outcome (inTransaction fate (attempt (run.queue.heartbeat run.claim now)) w.store)
  else outcome (inTransaction fate (attempt (run.queue.advanceStage run.claim stage now)) w.store)

inductive WorksAct
  | reply (i : ℕ) (reply : Reply)
  | crew (act : CrewAct)

def Scripted : CrewAct → Prop
  | .run _ (.progress ..) | .run _ (.returns _) | .run _ (.raises _) => True
  | _ => False

def settled (persister : ClaimedJob → Produced → Persister) (claim : ClaimedJob) :
    Dialogue Produced → Option RunMove
  | .done produced => some (.returns (some (persister claim produced)))
  | .fail raised => some (.raises raised)
  | .ask .. => none

inductive WorksStep (processor : PipelineJobProcessor) (persister : ClaimedJob → Produced → Persister) :
    Works → WorksAct → Works → Prop
  | asks {s : Works} {i : ℕ} {question : Ask}
      {next : Except Raised question.Answer → Dialogue Produced}
      (answer : Except Raised question.Answer)
      (hscript : s.scripts[i]? = some (.ask question next))
      (hquestion : ∀ stage, question ≠ .notify stage) :
      WorksStep processor persister s (.reply i ⟨question, answer⟩)
        ⟨s.crew, s.scripts.set i (next answer), s.heard ++ [(i, ⟨question, answer⟩)]⟩
  | notifies {s : Works} {i : ℕ} {stage : ProcessingStage} {run : JobRun}
      {next : Except Raised Unit → Dialogue Produced} {answer : Except Raised Unit} (now : Instant)
      (fate : Fate Raised) (hscript : s.scripts[i]? = some (.ask (.notify stage) next))
      (hrun : s.crew.runs[i]? = some run)
      (hanswer : answer = progressAnswer s.crew run (normalizeStage stage) now fate) :
      WorksStep processor persister s (.reply i ⟨.notify stage, answer⟩)
        ⟨(CrewAct.run i (.progress (normalizeStage stage) now fate)).perform s.crew,
          s.scripts.set i (next answer), s.heard ++ [(i, ⟨.notify stage, answer⟩)]⟩
  | settles {s : Works} {i : ℕ} {run : JobRun} {script : Dialogue Produced} {move : RunMove}
      (hscript : s.scripts[i]? = some script) (hrun : s.crew.runs[i]? = some run)
      (hmove : settled persister run.claim script = some move) :
      WorksStep processor persister s (.crew (.run i move))
        ⟨(CrewAct.run i move).perform s.crew, s.scripts, s.heard⟩
  | crew {s : Works} {act : CrewAct} (hact : ¬ Scripted act) (hallowed : act.Allowed s.crew) :
      WorksStep processor persister s (.crew act)
        ⟨act.perform s.crew,
          s.scripts ++ ((claims (act.perform s.crew)).drop s.scripts.length).map processor.call, s.heard⟩

section Claims

variable {w w' : Crew} {i : ℕ} {run : JobRun}

lemma put_claims {run' : JobRun} (hi : w.runs[i]? = some run) (hclaim : run'.claim = run.claim) :
    claims (w.put i run') = claims w := by
  obtain ⟨hlt, hrun⟩ := List.getElem?_eq_some_iff.mp hi
  have hlt' : i < (w.runs.map (·.claim)).length := by rwa [List.length_map]
  have hget : run.claim = (w.runs.map (·.claim))[i] := by rw [List.getElem_map, hrun]
  rw [claims, Crew.put, List.map_set, hclaim, hget, List.set_getElem_self]
  rfl

lemma move_claims (hi : w.runs[i]? = some run) (move : RunMove) :
    claims (move.perform w i run) = claims w := by
  have hstored : ∀ store run', run'.claim = run.claim → claims ((w.stored store).put i run') = claims w :=
    fun store run' h => put_claims (w := w.stored store) hi h
  cases move with
  | heartbeat now fate => exact hstored _ _ rfl
  | progress stage now fate =>
    simp only [RunMove.perform]
    split
    · split
      · rfl
      · split <;> rfl
    · rfl
  | returns persister =>
    simp only [RunMove.perform]
    split
    · exact put_claims hi rfl
    · rfl
  | raises raised =>
    simp only [RunMove.perform]
    split
    · exact put_claims hi rfl
    · rfl
  | complete now row faults fate =>
    simp only [RunMove.perform]
    split
    · exact hstored _ _ rfl
    · rfl
  | fail now row faults fate =>
    simp only [RunMove.perform]
    split
    · exact hstored _ _ rfl
    · rfl

lemma step_claims {act : CrewAct} (h : CrewStep w act w') :
    claims w' = claims w ∨ ∃ claim, claims w' = claims w ++ [claim] ∧ claim.claimToken ∈ w'.drawn := by
  obtain ⟨_, rfl⟩ := h
  cases act with
  | claimNext queue now token kinds locked =>
    simp only [CrewAct.perform]
    rcases hclaim : queue.claimNext now token kinds locked w.store.db with e | ⟨claim | claim, db⟩
    · exact .inl rfl
    · exact .inl rfl
    · refine .inr ⟨claim, List.map_append, ?_⟩
      rcases claimNext_ok hclaim ⟨0, 0⟩ with ⟨hnone, _⟩ | ⟨job, _, hsome, _⟩
      · cases hnone
      · cases hsome
        exact List.mem_cons_self
  | run i move =>
    left
    cases hi : w.runs[i]? with
    | none => simp only [CrewAct.perform, hi, Option.elim_none]
    | some run =>
      simp only [CrewAct.perform, hi, Option.elim_some]
      exact move_claims hi move
  | server call summaries => exact .inl rfl
  | edit results => exact .inl rfl

lemma run_step (w : Crew) (i : ℕ) (move : RunMove) :
    CrewStep w (.run i move) ((CrewAct.run i move).perform w) := ⟨trivial, rfl⟩

end Claims

section Steps

variable {processor : PipelineJobProcessor} {persister : ClaimedJob → Produced → Persister}
  {s s' : Works} {act : WorksAct} {i : ℕ} {claim : ClaimedJob}

lemma repliesTo_snoc (i j : ℕ) (heard : List (ℕ × Reply)) (reply : Reply) :
    repliesTo i (heard ++ [(j, reply)]) = repliesTo i heard ++ if j = i then [reply] else [] := by
  rw [repliesTo, List.filter_append, List.map_append, repliesTo]
  by_cases h : j = i <;> simp [h]

lemma step_crew (h : WorksStep processor persister s act s') :
    s'.crew = s.crew ∨ ∃ a, CrewStep s.crew a s'.crew := by
  cases h with
  | asks => exact .inl rfl
  | notifies => exact .inr ⟨_, run_step _ _ _⟩
  | settles => exact .inr ⟨_, run_step _ _ _⟩
  | crew _ hallowed => exact .inr ⟨_, hallowed, rfl⟩

structure WorksOk (processor : PipelineJobProcessor) (s : Works) : Prop where
  crew : CrewOk s.crew
  drawn : ∀ claim ∈ claims s.crew, claim.claimToken ∈ s.crew.drawn
  length : s.scripts.length = (claims s.crew).length
  reached : ∀ i claim script, (claims s.crew)[i]? = some claim → s.scripts[i]? = some script →
    Reaches (processor.call claim) (repliesTo i s.heard) script
  unheard : ∀ i, s.scripts.length ≤ i → repliesTo i s.heard = []

lemma WorksOk.init (processor : PipelineJobProcessor) (settings : Option ProcessingSettings) :
    WorksOk processor (.init settings) := by
  refine ⟨.init settings, nofun, rfl, ?_, fun _ _ => rfl⟩
  intro i claim script hclaim
  cases hclaim

lemma WorksOk.replied (hok : WorksOk processor s) {crew : Crew} {question : Ask}
    {next : Except Raised question.Answer → Dialogue Produced} {answer : Except Raised question.Answer}
    (hcrew : CrewOk crew) (hclaims : claims crew = claims s.crew)
    (hdrawn : ∀ token ∈ s.crew.drawn, token ∈ crew.drawn)
    (hscript : s.scripts[i]? = some (.ask question next)) :
    WorksOk processor
      ⟨crew, s.scripts.set i (next answer), s.heard ++ [(i, ⟨question, answer⟩)]⟩ := by
  obtain ⟨hlt, _⟩ := List.getElem?_eq_some_iff.mp hscript
  refine ⟨hcrew, ?_, ?_, ?_, ?_⟩
  · intro claim hclaim
    exact hdrawn _ (hok.drawn claim (hclaims ▸ hclaim))
  · rw [List.length_set, hclaims, hok.length]
  · intro j claim script hclaim hj
    rw [repliesTo_snoc]
    rw [hclaims] at hclaim
    by_cases hij : i = j
    · subst hij
      rw [List.getElem?_set_self hlt] at hj
      cases hj
      rw [if_pos rfl]
      exact (hok.reached i claim _ hclaim hscript).append (.ask (.start _))
    · rw [List.getElem?_set_ne hij] at hj
      rw [if_neg hij, List.append_nil]
      exact hok.reached j claim script hclaim hj
  · intro j hj
    rw [List.length_set] at hj
    rw [repliesTo_snoc, hok.unheard j hj, if_neg (by omega), List.append_nil]

lemma WorksOk.grown (hok : WorksOk processor s) {act : CrewAct} {crew : Crew}
    (h : CrewStep s.crew act crew) :
    WorksOk processor
      ⟨crew, s.scripts ++ ((claims crew).drop s.scripts.length).map processor.call, s.heard⟩ := by
  have hdrawn := step_drawn h
  rcases step_claims h with hsame | ⟨claim, hmore, hfresh⟩
  · have hnone : ((claims crew).drop s.scripts.length).map processor.call = [] := by
      rw [hsame, hok.length, List.drop_length, List.map_nil]
    rw [hnone, List.append_nil]
    refine ⟨step_crewOk hok.crew h, ?_, hsame ▸ hok.length, hsame ▸ hok.reached, hok.unheard⟩
    intro claim hclaim
    exact hdrawn _ (hok.drawn claim (hsame ▸ hclaim))
  · have hone : ((claims crew).drop s.scripts.length).map processor.call = [processor.call claim] := by
      rw [hmore, hok.length, List.drop_left, List.map_singleton]
    rw [hone]
    refine ⟨step_crewOk hok.crew h, ?_, ?_, ?_, ?_⟩
    · intro c hc
      rw [hmore, List.mem_append, List.mem_singleton] at hc
      rcases hc with hc | rfl
      · exact hdrawn _ (hok.drawn c hc)
      · exact hfresh
    · rw [hmore, List.length_append, List.length_append, hok.length]
      rfl
    · intro j c script hc hscript
      rw [hmore] at hc
      by_cases hj : j < s.scripts.length
      · rw [List.getElem?_append_left (hok.length ▸ hj)] at hc
        rw [List.getElem?_append_left hj] at hscript
        exact hok.reached j c script hc hscript
      · have hle := not_lt.mp hj
        rw [List.getElem?_append_right (hok.length ▸ hle), ← hok.length] at hc
        rw [List.getElem?_append_right hle] at hscript
        obtain ⟨_, rfl⟩ := List.getElem?_eq_some_iff.mp hc
        obtain ⟨_, rfl⟩ := List.getElem?_eq_some_iff.mp hscript
        rw [hok.unheard j hle, List.getElem_singleton, List.getElem_singleton]
        exact .start _
    · intro j hj
      apply hok.unheard
      rw [List.length_append] at hj
      omega

lemma step_worksOk (hok : WorksOk processor s) (h : WorksStep processor persister s act s') :
    WorksOk processor s' := by
  cases h with
  | asks answer hscript _ => exact hok.replied hok.crew rfl (fun _ h => h) hscript
  | @notifies i stage run _ _ now fate hscript hrun _ =>
    have hstep := run_step s.crew i (.progress (normalizeStage stage) now fate)
    refine hok.replied (step_crewOk hok.crew hstep) ?_ (step_drawn hstep) hscript
    rw [CrewAct.perform, hrun, Option.elim_some]
    exact move_claims hrun _
  | @settles i run script move hscript hrun hmove =>
    have hstep := run_step s.crew i move
    have hclaims : claims ((CrewAct.run i move).perform s.crew) = claims s.crew := by
      rw [CrewAct.perform, hrun, Option.elim_some]
      exact move_claims hrun move
    refine ⟨step_crewOk hok.crew hstep, ?_, hclaims ▸ hok.length, ?_, hok.unheard⟩
    · intro claim hclaim
      exact step_drawn hstep _ (hok.drawn claim (hclaims ▸ hclaim))
    · intro j claim script hclaim
      rw [hclaims] at hclaim
      exact hok.reached j claim script hclaim
  | crew _ hallowed => exact hok.grown ⟨hallowed, rfl⟩

end Steps

section Announcements

variable {processor : PipelineJobProcessor} {claim : ClaimedJob} {t : List Reply}
  {p : Dialogue Produced}

def Heavy : Ask → Prop
  | .transcribe | .diarize => True
  | _ => False

lemma plan_announces {key : Text} {before after : List Ask} {question : Ask}
    (h : before ++ question :: after <+: .materialize key :: pipelinePlan) (hheavy : Heavy question) :
    ∃ stage, before.getLast? = some (.notify stage) := by
  have hlength : before.length < (Ask.materialize key :: pipelinePlan).length := by
    have := h.length_le
    rw [List.length_append, List.length_cons] at this
    omega
  have hbefore : before = (Ask.materialize key :: pipelinePlan).take before.length := by
    obtain ⟨rest, hrest⟩ := h
    rw [← hrest, List.append_assoc, List.take_left]
  have hat : (Ask.materialize key :: pipelinePlan)[before.length]? = some question := by
    obtain ⟨rest, hrest⟩ := h
    rw [← hrest, List.append_assoc, List.getElem?_append_right le_rfl, Nat.sub_self]
    rfl
  rw [hbefore]
  clear hbefore h
  generalize before.length = n at hlength hat
  change n < 11 at hlength
  interval_cases n
  all_goals
    cases hat
    first
      | exact False.elim hheavy
      | exact ⟨_, rfl⟩

def Announced (before : List Reply) : Prop :=
  ∃ stage, before.getLast? = some ⟨.notify stage, .ok ()⟩

lemma announcement {y : Reply} {stage : ProcessingStage} (hquestion : y.question = .notify stage)
    (hanswered : Answered y) : y = ⟨.notify stage, .ok ()⟩ := by
  rcases y with ⟨question, answer⟩
  cases hquestion
  obtain ⟨a, ha⟩ := hanswered
  exact congrArg (Exchange.mk (Ask.notify stage)) ha

lemma follows_announces {key : Text} {before after : List Reply} {x : Reply}
    (h : Follows (.materialize key :: pipelinePlan) (before ++ x :: after))
    (hheavy : Heavy x.question) : Announced before := by
  obtain ⟨horder, hanswered⟩ := h
  rw [List.map_append, List.map_cons] at horder
  obtain ⟨stage, hstage⟩ := plan_announces horder hheavy
  rw [List.getLast?_map, Option.map_eq_some_iff] at hstage
  obtain ⟨y, hy, hquestion⟩ := hstage
  have hmem : y ∈ (before ++ x :: after).dropLast := by
    rw [List.dropLast_append_of_ne_nil (List.cons_ne_nil x after)]
    exact List.mem_append_left _ (List.mem_of_getLast? hy)
  rw [announcement hquestion (hanswered y hmem)] at hy
  exact ⟨stage, hy⟩

lemma full_stuck (hkind : claim.kind = .full)
    (hstuck : processor.pipeline = none ∨ claim.recordingId = none)
    (h : Reaches (processor.call claim) t p) : t = [] := by
  have hcall : processor.call claim = processor.processFull claim := by
    rw [PipelineJobProcessor.call, hkind]
  rw [hcall, PipelineJobProcessor.processFull] at h
  cases hpipeline : processor.pipeline with
  | none =>
    simp only [hpipeline] at h
    exact (reaches_fail h).1
  | some pipeline =>
    have hscope : claim.recordingId = none := hstuck.resolve_left (by simp [hpipeline])
    simp only [hpipeline] at h
    change Reaches (recordingScope claim >>= _) t p at h
    rw [recordingScope, hscope] at h
    exact (reaches_fail h).1

lemma Announced.after {before : List Reply} (h : Announced before) (earlier : List Reply) :
    Announced (earlier ++ before) := by
  obtain ⟨stage, hstage⟩ := h
  exact ⟨stage, by rw [List.getLast?_append, hstage, Option.some_or]⟩

lemma within_middle {α : Type} {x : α} {before after first middle last : List α} (hfirst : x ∉ first)
    (hlast : x ∉ last) (h : before ++ x :: after = first ++ (middle ++ last)) :
    ∃ b a, before = first ++ b ∧ middle = b ++ x :: a := by
  rcases List.append_eq_append_iff.mp h with ⟨rest, rfl, hx⟩ | ⟨b, rfl, hmiddle⟩
  · cases rest with
    | cons y rest =>
      cases hx
      exact absurd (List.mem_append_right _ List.mem_cons_self) hfirst
    | nil =>
      rw [List.nil_append] at hx
      cases middle with
      | nil =>
        rw [List.nil_append] at hx
        exact absurd (hx ▸ List.mem_cons_self) hlast
      | cons y middle =>
        cases hx
        exact ⟨[], middle, by simp, rfl⟩
  · rcases List.append_eq_append_iff.mp hmiddle with ⟨rest, rfl, hx⟩ | ⟨rest, rfl, hx⟩
    · exact absurd (hx ▸ List.mem_append_right _ List.mem_cons_self) hlast
    · cases rest with
      | nil => exact absurd (List.nil_append last ▸ hx ▸ List.mem_cons_self) hlast
      | cons y rest =>
        cases hx
        exact ⟨b, rest, rfl, rfl⟩

lemma working_announces {pipeline : ProcessingPipeline} {id : RecordingId} {before after : List Reply}
    {x : Reply} (h : Working processor pipeline claim id (before ++ x :: after) p)
    (hheavy : Heavy x.question) : Announced before := by
  obtain ⟨key, t₁, t₂, ht, hcleaned⟩ := h
  have hfirst : x ∉ [(⟨.storageKey id, .ok (some key)⟩ : Reply),
      ⟨.workDirectory claim.id claim.claimToken, .ok ()⟩] := by
    intro hx
    simp only [List.mem_cons, List.not_mem_nil, or_false] at hx
    rcases hx with rfl | rfl <;> exact hheavy
  have hlast : x ∉ t₂ := by
    intro hx
    rcases hcleaned.last with rfl | ⟨answer, rfl⟩
    · cases hx
    · cases List.mem_singleton.mp hx
      exact hheavy
  obtain ⟨b, a, rfl, rfl⟩ := within_middle hfirst hlast ht
  exact (follows_announces hcleaned.order hheavy).after _

lemma opening_light {id : RecordingId} {x : Reply} (h : Opening claim id t p) (hx : x ∈ t) :
    ¬ Heavy x.question := by
  have hmem := h.order.1.subset (List.mem_map_of_mem hx)
  simp only [List.mem_cons, List.not_mem_nil, or_false] at hmem
  rcases hmem with hquestion | hquestion <;> rw [hquestion] <;> exact fun h => h

lemma forText_light {question : Ask} (h : ForText question) : ¬ Heavy question := by
  cases question <;> first | exact id | cases h

lemma call_announces {before after : List Reply} {x : Reply}
    (h : Reaches (processor.call claim) (before ++ x :: after) p) (hheavy : Heavy x.question) :
    Announced before := by
  by_cases hkind : claim.kind = .full
  · cases hpipeline : processor.pipeline with
    | none => exact absurd (full_stuck hkind (.inl hpipeline) h) (by simp)
    | some pipeline =>
      cases hscope : claim.recordingId with
      | none => exact absurd (full_stuck hkind (.inr hscope) h) (by simp)
      | some id =>
        rcases full_protocol hkind hpipeline hscope h with hopening | hworking
        · exact absurd hheavy
            (opening_light hopening (List.mem_append_right _ List.mem_cons_self))
        · exact working_announces hworking hheavy
  · have htext := (text_protocol hkind h).1 x (List.mem_append_right _ List.mem_cons_self)
    exact absurd hheavy (forText_light htext)

end Announcements

section Loss

variable {processor : PipelineJobProcessor} {persister : ClaimedJob → Produced → Persister}
  {s s' : Works} {act : WorksAct} {i : ℕ} {claim : ClaimedJob} {heard : List (ℕ × Reply)}

lemma accepted_held {call : QueueCall} {answer : Answer} {db db' : Database}
    (hclaim : call.claim = some claim) (h : call.exec db = .ok (answer, db')) : Held claim db := by
  by_contra hlost
  obtain ⟨e, he, _⟩ := exec_refused hclaim hlost
  rw [he] at h
  cases h

lemma outcome_ok {α : Type} {fate : Fate Raised} {body : Program α} {store : Store} {a : α}
    (h : outcome (inTransaction fate body store) = .ok a) : ∃ t, body store = .ok a t := by
  rw [inTransaction] at h
  cases hbody : body store with
  | ok b t =>
    rw [hbody] at h
    cases fate <;> cases h
    exact ⟨t, rfl⟩
  | error e t =>
    rw [hbody] at h
    cases h

lemma progress_held {w : Crew} {run : JobRun} {stage : JobStage} {now : Instant} {fate : Fate Raised}
    (h : progressAnswer w run stage now fate = .ok ()) : Held run.claim w.store.db := by
  unfold progressAnswer at h
  split at h
  · cases h
  · split at h
    · obtain ⟨t, ht⟩ := outcome_ok h
      obtain ⟨db, hdb, _⟩ := attempt_ok ht
      have hcall : (QueueCall.heartbeat run.queue run.claim now).exec w.store.db = .ok (.done, db) := by
        rw [QueueCall.exec, hdb]
        rfl
      exact accepted_held rfl hcall
    · obtain ⟨t, ht⟩ := outcome_ok h
      obtain ⟨db, hdb, _⟩ := attempt_ok ht
      have hcall : (QueueCall.advanceStage run.queue run.claim stage now).exec w.store.db =
          .ok (.done, db) := by
        rw [QueueCall.exec, hdb]
        rfl
      exact accepted_held rfl hcall

structure AfterLoss (processor : PipelineJobProcessor) (claim : ClaimedJob) (i : ℕ)
    (heard : List (ℕ × Reply)) (s : Works) : Prop where
  ok : WorksOk processor s
  mine : (claims s.crew)[i]? = some claim
  lost : Over claim s.crew
  told : ∃ more, s.heard = heard ++ more ∧
    ∀ stage, (⟨.notify stage, .ok ()⟩ : Reply) ∉ repliesTo i more

lemma step_mine (h : WorksStep processor persister s act s') (hmine : (claims s.crew)[i]? = some claim) :
    (claims s'.crew)[i]? = some claim := by
  rcases step_crew h with hsame | ⟨a, hstep⟩
  · rwa [hsame]
  · rcases step_claims hstep with hsame | ⟨c, hmore, _⟩
    · rwa [hsame]
    · obtain ⟨hlt, _⟩ := List.getElem?_eq_some_iff.mp hmine
      rwa [hmore, List.getElem?_append_left hlt]

lemma step_crewOver (hok : WorksOk processor s) (h : WorksStep processor persister s act s')
    (hover : Over claim s.crew) : Over claim s'.crew := by
  rcases step_crew h with hsame | ⟨a, hstep⟩
  · rwa [hsame]
  · exact step_over hok.crew hstep hover

lemma not_told {more : List (ℕ × Reply)} {j : ℕ} {reply : Reply} {stage : ProcessingStage}
    (htold : (⟨.notify stage, .ok ()⟩ : Reply) ∉ repliesTo i more)
    (hreply : j = i → reply ≠ ⟨.notify stage, .ok ()⟩) :
    (⟨.notify stage, .ok ()⟩ : Reply) ∉ repliesTo i (more ++ [(j, reply)]) := by
  rw [repliesTo_snoc, List.mem_append]
  rintro (hmem | hmem)
  · exact htold hmem
  · split at hmem
    · rename_i hj
      exact hreply hj (List.mem_singleton.mp hmem).symm
    · cases hmem

lemma step_told (h : WorksStep processor persister s act s')
    (hloss : AfterLoss processor claim i heard s) :
    ∃ more, s'.heard = heard ++ more ∧
      ∀ stage, (⟨.notify stage, .ok ()⟩ : Reply) ∉ repliesTo i more := by
  obtain ⟨more, hheard, htold⟩ := hloss.told
  cases h with
  | @asks j question next answer hscript hquestion =>
    refine ⟨more ++ [(j, ⟨question, answer⟩)], by rw [hheard, List.append_assoc], ?_⟩
    intro stage
    refine not_told (htold stage) (fun _ heq => hquestion stage ?_)
    exact congrArg Exchange.question heq
  | @notifies j stage run next answer now fate hscript hrun hanswer =>
    refine ⟨more ++ [(j, ⟨.notify stage, answer⟩)], by rw [hheard, List.append_assoc], ?_⟩
    intro stage'
    refine not_told (htold stage') ?_
    rintro rfl heq
    have hclaim : run.claim = claim := by
      have hmine := hloss.mine
      rw [claims, List.getElem?_map, hrun, Option.map_some] at hmine
      exact Option.some.inj hmine
    cases heq
    exact hloss.lost.2 (hclaim ▸ progress_held hanswer.symm)
  | settles => exact ⟨more, hheard, htold⟩
  | crew => exact ⟨more, hheard, htold⟩

lemma step_afterLoss (h : WorksStep processor persister s act s')
    (hloss : AfterLoss processor claim i heard s) : AfterLoss processor claim i heard s' :=
  ⟨step_worksOk hloss.ok h, step_mine h hloss.mine, step_crewOver hloss.ok h hloss.lost,
    step_told h hloss⟩

def ByRun (i : ℕ) : WorksAct → Prop
  | .reply j _ => j = i
  | .crew (.run j _) => j = i
  | .crew _ => False

lemma move_writes {move : RunMove} (hloss : AfterLoss processor claim i heard s) :
    ((CrewAct.run i move).perform s.crew).store.results = s.crew.store.results := by
  have hstep := run_step s.crew i move
  have hmine := hloss.mine
  rw [claims, List.getElem?_map, Option.map_eq_some_iff] at hmine
  obtain ⟨run, hrun, hclaim⟩ := hmine
  have hof : OfAttempt claim ⟨s.crew, .run i move, (CrewAct.run i move).perform s.crew⟩ :=
    ⟨i, move, run, rfl, hrun, hclaim⟩
  rcases step_outcome hstep hof with hcompletes | hfails | hleaves
  · exact absurd hcompletes.ends.1 hloss.lost.2
  · exact absurd hfails.ends.1 hloss.lost.2
  · exact hleaves.writes

lemma step_writes (h : WorksStep processor persister s act s')
    (hloss : AfterLoss processor claim i heard s) (hby : ByRun i act) :
    s'.crew.store.results = s.crew.store.results := by
  cases h with
  | asks => rfl
  | @notifies j =>
    cases hby
    exact move_writes hloss
  | @settles j =>
    cases hby
    exact move_writes hloss
  | @crew act =>
    cases act with
    | run j move =>
      cases hby
      exact move_writes hloss
    | claimNext => cases hby
    | server => cases hby
    | edit => cases hby

lemma repliesTo_append (i : ℕ) (heard more : List (ℕ × Reply)) :
    repliesTo i (heard ++ more) = repliesTo i heard ++ repliesTo i more := by
  rw [repliesTo, List.filter_append, List.map_append, repliesTo, repliesTo]

lemma AfterLoss.light (hloss : AfterLoss processor claim i heard s) :
    ∃ more, s.heard = heard ++ more ∧
      (∀ stage, (⟨.notify stage, .ok ()⟩ : Reply) ∉ repliesTo i more) ∧
      ∀ x ∈ (repliesTo i more).tail, ¬ Heavy x.question := by
  obtain ⟨more, hheard, htold⟩ := hloss.told
  refine ⟨more, hheard, htold, ?_⟩
  intro x hx hheavy
  obtain ⟨hlt, _⟩ := List.getElem?_eq_some_iff.mp hloss.mine
  have hscript := List.getElem?_eq_getElem (hloss.ok.length ▸ hlt)
  have hreached := hloss.ok.reached i claim _ hloss.mine hscript
  rw [hheard, repliesTo_append] at hreached
  cases hmine : repliesTo i more with
  | nil =>
    rw [hmine] at hx
    cases hx
  | cons first rest =>
    rw [hmine] at hx hreached
    obtain ⟨before, after, rfl⟩ := List.append_of_mem hx
    have hsplit : repliesTo i heard ++ first :: (before ++ x :: after) =
        (repliesTo i heard ++ first :: before) ++ x :: after := by simp
    rw [hsplit] at hreached
    obtain ⟨stage, hlast⟩ := call_announces hreached hheavy
    apply htold stage
    rw [hmine, ← List.cons_append]
    apply List.mem_append_left
    rw [List.getLast?_append_of_ne_nil _ (List.cons_ne_nil first before)] at hlast
    exact List.mem_of_getLast? hlast

end Loss

theorem lost_claim_stops (processor : PipelineJobProcessor) (persister : ClaimedJob → Produced → Persister)
    {settings : Option ProcessingSettings} {s s' : Works} {es es' : List (Event Works WorksAct)}
    (hrun : Run (WorksStep processor persister) (.init settings) es s) {i : ℕ} {claim : ClaimedJob}
    (hi : (claims s.crew)[i]? = some claim) (hlost : ¬ Held claim s.crew.store.db)
    (hmore : Run (WorksStep processor persister) s es' s') :
    (∃ more, s'.heard = s.heard ++ more ∧
      (∀ stage, (⟨.notify stage, .ok ()⟩ : Reply) ∉ repliesTo i more) ∧
      ∀ x ∈ (repliesTo i more).tail, ¬ Heavy x.question) ∧
    ∀ e ∈ es', ¬ Held claim e.after.crew.store.db ∧
      (ByRun i e.label → e.after.crew.store.results = e.before.crew.store.results) := by
  have hok := hrun.keeps (WorksOk processor) (fun _ _ _ hok h => step_worksOk hok h)
    (.init processor settings)
  have hloss : AfterLoss processor claim i s.heard s :=
    ⟨hok, hi, ⟨hok.drawn claim (List.mem_of_getElem? hi), hlost⟩, [], (List.append_nil _).symm,
      fun _ => List.not_mem_nil⟩
  have hkeeps : ∀ u a v, AfterLoss processor claim i s.heard u → WorksStep processor persister u a v →
      AfterLoss processor claim i s.heard v := fun _ _ _ hloss h => step_afterLoss h hloss
  refine ⟨(hmore.keeps _ hkeeps hloss).light, ?_⟩
  intro e he
  have hbefore := hmore.event_keeps _ hkeeps hloss he
  have hstep := hmore.event_step he
  exact ⟨(step_afterLoss hstep hbefore).lost.2, step_writes hstep hbefore⟩

def recoverExpired : ServerCall :=
  .queue (.recoverExpired exampleWorker 100000000000 10 [] (fun _ => ⟨9, 9⟩))

def uploaded : Crew := (CrewAct.server uploadedOnce []).perform (.init none)

def claimed : Crew := (CrewAct.claimNext exampleWorker 0 7 none []).perform uploaded

def recovered : Crew := (CrewAct.server recoverExpired []).perform claimed

lemma crew_step {processor : PipelineJobProcessor} {persister : ClaimedJob → Produced → Persister}
    {s : Works} {act : CrewAct} (new : List ClaimedJob) (hact : ¬ Scripted act)
    (hallowed : act.Allowed s.crew) (hnew : (claims (act.perform s.crew)).drop s.scripts.length = new) :
    WorksStep processor persister s (.crew act)
      ⟨act.perform s.crew, s.scripts ++ new.map processor.call, s.heard⟩ := by
  rw [← hnew]
  exact .crew hact hallowed

def discards : ClaimedJob → Produced → Persister := fun _ _ => halfwayPersister

abbrev ExampleRun := Run (WorksStep exampleProcessor discards)

theorem lost_claim_stops_recovered :
    ∃ es' s', ExampleRun ⟨recovered, [exampleProcessor.call firstClaim], []⟩ es' s' ∧
      s'.heard.length = 4 ∧
      (∃ more, s'.heard = [] ++ more ∧
        (∀ stage, (⟨.notify stage, .ok ()⟩ : Reply) ∉ repliesTo 0 more) ∧
        ∀ x ∈ (repliesTo 0 more).tail, ¬ Heavy x.question) ∧
      ∀ e ∈ es', ¬ Held firstClaim e.after.crew.store.db ∧
        (ByRun 0 e.label → e.after.crew.store.results = e.before.crew.store.results) := by
  have hupload : WorksStep exampleProcessor discards (.init none) (.crew (.server uploadedOnce []))
      ⟨uploaded, [], []⟩ :=
    crew_step [] id (by decide +kernel) (by decide +kernel)
  have hclaim : WorksStep exampleProcessor discards ⟨uploaded, [], []⟩
      (.crew (.claimNext exampleWorker 0 7 none [])) ⟨claimed, [exampleProcessor.call firstClaim], []⟩ :=
    crew_step [firstClaim] id (by decide +kernel) (by decide +kernel)
  have hrecover : WorksStep exampleProcessor discards ⟨claimed, [exampleProcessor.call firstClaim], []⟩
      (.crew (.server recoverExpired [])) ⟨recovered, [exampleProcessor.call firstClaim], []⟩ :=
    crew_step [] id (by decide +kernel) (by decide +kernel)
  have hbefore := (Run.single hupload).append ((Run.single hclaim).append (.single hrecover))
  have hlost : ¬ Held firstClaim recovered.store.db := by decide +kernel
  have hasks : ExampleRun ⟨recovered, [exampleProcessor.call firstClaim], []⟩ _ _ :=
    .cons (@WorksStep.asks _ _ _ 0 (.storageKey 1) _ (.ok (some "recordings/1".toList)) rfl nofun)
      (.cons (@WorksStep.asks _ _ _ 0 (.workDirectory 1 7) _ (.ok ()) rfl nofun)
        (.cons (@WorksStep.asks _ _ _ 0 (.materialize "recordings/1".toList) _ (.ok ()) rfl nofun)
          (.single (@WorksStep.notifies _ _ _ 0 .preprocessing _ _ _ 9 .commits rfl rfl rfl))))
  exact ⟨_, _, hasks, rfl, lost_claim_stops exampleProcessor discards hbefore rfl hlost hasks⟩

end AudioServer.Worker.ProcessingRuns
