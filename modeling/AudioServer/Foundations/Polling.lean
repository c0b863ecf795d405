import AudioServer.Foundations.Pools
import AudioServer.Foundations.Runs

/-! A reader that asks a changing server over and over, one call after the other. The server answers a
call by several reads, each of the state it is then in. -/

namespace AudioServer.Foundations.Polling

open AudioServer.Foundations.Pools AudioServer.Foundations.Runs

variable {σ α ρ ε : Type}

/-- What a call has been answered so far, each part with the moment of its read. -/
structure Call (ρ : Type) where
  run : ℕ
  parts : List (ℕ × ρ)

/-- `run` tells the runs of the reader's loop apart; `applied` is what its current run took in, and
the runs before it. -/
structure Reader (ρ ε : Type) where
  applied : List (Except ε (List (ℕ × ρ)))
  run : ℕ
  timer : Bool
  closed : Bool
  flight : List (Call ρ)

namespace Reader

def ask (r : Reader ρ ε) : Reader ρ ε :=
  { r with flight := r.flight ++ [⟨r.run, []⟩], timer := false }

def start : Reader ρ ε := ask ⟨[], 0, false, false, []⟩

def settle (r : Reader ρ ε) (call : Call ρ) (outcome : Except ε (List (ℕ × ρ))) : Reader ρ ε :=
  if call.run = r.run ∧ r.closed = false then
    { r with applied := r.applied ++ [outcome], timer := true }
  else r

def live (r : Reader ρ ε) : ℕ := r.flight.countP (fun call => call.run = r.run)

end Reader

/-- `past` are the states the server has left, so that its present moment is their number. -/
structure System (σ ρ ε : Type) where
  past : List σ
  server : σ
  reader : Reader ρ ε

def System.at (s : System σ ρ ε) (moment : ℕ) : Option σ := (s.past ++ [s.server])[moment]?

def System.begin (server : σ) : System σ ρ ε := ⟨[], server, .start⟩

inductive Act (α ε : Type)
  | server (act : α)
  | serve (k : ℕ)
  | arrive (k : ℕ)
  | fail (k : ℕ) (error : ε)
  | tick
  | restart
  | close

variable (step : σ → α → σ → Prop) (queries : List (σ → ρ))

inductive Step : System σ ρ ε → Act α ε → System σ ρ ε → Prop
  | server {s : System σ ρ ε} {act : α} {t : σ} (h : step s.server act t) :
    Step s (.server act) { s with past := s.past ++ [s.server], server := t }
  | serve {s : System σ ρ ε} {k : ℕ} {call : Call ρ} {query : σ → ρ}
    (hk : s.reader.flight[k]? = some call) (hquery : queries[call.parts.length]? = some query) :
    Step s (.serve k) { s with reader := { s.reader with
      flight := s.reader.flight.set k
        { call with parts := call.parts ++ [(s.past.length, query s.server)] } } }
  | arrive {s : System σ ρ ε} {k : ℕ} {call : Call ρ} (hk : s.reader.flight[k]? = some call)
    (hdone : call.parts.length = queries.length) :
    Step s (.arrive k) { s with reader :=
      { s.reader with flight := s.reader.flight.eraseIdx k }.settle call (.ok call.parts) }
  | fail {s : System σ ρ ε} {k : ℕ} {call : Call ρ} {error : ε}
    (hk : s.reader.flight[k]? = some call) :
    Step s (.fail k error) { s with reader :=
      { s.reader with flight := s.reader.flight.eraseIdx k }.settle call (.error error) }
  | tick {s : System σ ρ ε} (htimer : s.reader.timer = true) :
    Step s .tick { s with reader := s.reader.ask }
  | restart {s : System σ ρ ε} (hopen : s.reader.closed = false) :
    Step s .restart { s with reader := { s.reader with run := s.reader.run + 1 }.ask }
  | close {s : System σ ρ ε} : Step s .close { s with reader :=
      { s.reader with closed := true, timer := false } }

section Moments

def readAt : Except ε (List (ℕ × ρ)) → List ℕ
  | .ok parts => parts.map Prod.fst
  | .error _ => []

def moments (applied : List (Except ε (List (ℕ × ρ)))) : List ℕ := applied.flatMap readAt

variable {step} {queries} {s t : System σ ρ ε} {parts : List (ℕ × ρ)}

def Reads (queries : List (σ → ρ)) (s : System σ ρ ε) (parts : List (ℕ × ρ)) : Prop :=
  ∀ (i n : ℕ) (value : ρ), parts[i]? = some (n, value) →
    ∃ query u, queries[i]? = some query ∧ s.at n = some u ∧ value = query u

structure Sound (queries : List (σ → ρ)) (s : System σ ρ ε) : Prop where
  runs : ∀ call ∈ s.reader.flight, call.run ≤ s.reader.run
  one : s.reader.closed = false → s.reader.timer.toNat + s.reader.live = 1
  stopped : s.reader.closed = true → s.reader.timer = false
  read : ∀ call ∈ s.reader.flight, Reads queries s call.parts
  applied : ∀ parts, .ok parts ∈ s.reader.applied → Reads queries s parts
  whole : ∀ parts, .ok parts ∈ s.reader.applied → parts.length = queries.length
  ordered : (moments s.reader.applied).Pairwise (· ≤ ·)
  next : ∀ call ∈ s.reader.flight, call.run = s.reader.run → s.reader.closed = false →
    (moments s.reader.applied ++ call.parts.map Prod.fst).Pairwise (· ≤ ·)
  now : ∀ n ∈ moments s.reader.applied, n ≤ s.past.length

lemma moments_snoc (applied : List (Except ε (List (ℕ × ρ)))) (parts : List (ℕ × ρ)) :
    moments (applied ++ [.ok parts]) = moments applied ++ parts.map Prod.fst := by
  simp [moments, readAt]

lemma moments_failed (applied : List (Except ε (List (ℕ × ρ)))) (error : ε) :
    moments (applied ++ [.error error]) = moments applied := by
  simp [moments, readAt]

lemma moments_of {applied : List (Except ε (List (ℕ × ρ)))} (h : .ok parts ∈ applied) :
    (parts.map Prod.fst).Sublist (moments applied) :=
  List.sublist_flatten_of_mem (List.mem_map.mpr ⟨.ok parts, h, rfl⟩)

lemma Reads.past (h : Reads queries s parts) : ∀ n ∈ parts.map Prod.fst, n ≤ s.past.length := by
  intro n hn
  obtain ⟨⟨n, value⟩, hpart, rfl⟩ := List.mem_map.mp hn
  obtain ⟨i, hi⟩ := List.mem_iff_getElem?.mp hpart
  obtain ⟨_, _, _, hat, _⟩ := h i n value hi
  have hlt := (List.getElem?_eq_some_iff.mp hat).1
  rw [List.length_append, List.length_singleton] at hlt
  exact Nat.lt_succ_iff.mp hlt

lemma Reads.of_at (h : Reads queries s parts) (hat : ∀ n u, s.at n = some u → t.at n = some u) :
    Reads queries t parts := by
  intro i n value hi
  obtain ⟨query, u, hquery, hu, hvalue⟩ := h i n value hi
  exact ⟨query, u, hquery, hat n u hu, hvalue⟩

lemma Reads.snoc (h : Reads queries s parts) {query : σ → ρ}
    (hquery : queries[parts.length]? = some query) :
    Reads queries s (parts ++ [(s.past.length, query s.server)]) := by
  intro i n value hi
  rcases snoc_some hi with hi | ⟨rfl, hpart⟩
  · exact h i n value hi
  · cases hpart
    refine ⟨query, s.server, hquery, ?_, rfl⟩
    rw [System.at, List.getElem?_append_right (Nat.le_refl _), Nat.sub_self]
    rfl

lemma sound_begin (server : σ) : Sound queries (System.begin server : System σ ρ ε) where
  runs call hc := by
    rw [List.mem_singleton.mp hc]
    exact Nat.le_refl _
  one _ := rfl
  stopped := nofun
  read call hc := by
    rw [List.mem_singleton.mp hc]
    exact nofun
  applied _ h := absurd h List.not_mem_nil
  whole _ h := absurd h List.not_mem_nil
  ordered := .nil
  next call hc _ _ := by
    rw [List.mem_singleton.mp hc]
    exact .nil
  now _ h := absurd h List.not_mem_nil

lemma Sound.moved (h : Sound queries s) (u : σ) :
    Sound queries { s with past := s.past ++ [s.server], server := u } := by
  have hat : ∀ n v, s.at n = some v →
      ({ s with past := s.past ++ [s.server], server := u } : System σ ρ ε).at n = some v :=
    fun n v hn => snoc_old hn
  refine ⟨h.runs, h.one, h.stopped, fun call hc => (h.read call hc).of_at hat,
    fun parts hp => (h.applied parts hp).of_at hat, h.whole, h.ordered, h.next, ?_⟩
  intro n hn
  rw [List.length_append]
  exact Nat.le_add_right_of_le (h.now n hn)

lemma live_set {flight : List (Call ρ)} {k : ℕ} {call : Call ρ} (hk : flight[k]? = some call)
    (parts : List (ℕ × ρ)) (run : ℕ) :
    (flight.set k { call with parts := parts }).countP (fun call => call.run = run) =
      flight.countP (fun call => call.run = run) := by
  have hmap : (flight.set k { call with parts := parts }).map Call.run = flight.map Call.run :=
    map_set_same hk rfl
  have hcount := congrArg (List.countP (fun n => n = run)) hmap
  rwa [List.countP_map, List.countP_map] at hcount

lemma Sound.served (h : Sound queries s) {k : ℕ} {call : Call ρ} {query : σ → ρ}
    (hk : s.reader.flight[k]? = some call) (hquery : queries[call.parts.length]? = some query) :
    Sound queries { s with reader := { s.reader with
      flight := s.reader.flight.set k
        { call with parts := call.parts ++ [(s.past.length, query s.server)] } } } := by
  have hmem := List.mem_of_getElem? hk
  refine ⟨forall_set h.runs (h.runs call hmem), ?_, h.stopped,
    forall_set h.read ((h.read call hmem).snoc hquery), h.applied, h.whole, h.ordered, ?_, h.now⟩
  · intro hopen
    have hlive := live_set hk (call.parts ++ [(s.past.length, query s.server)]) s.reader.run
    exact (congrArg (s.reader.timer.toNat + ·) hlive).trans (h.one hopen)
  · refine forall_set h.next ?_
    intro hrun hopen
    have hread := (h.read call hmem).past
    rw [List.map_append, ← List.append_assoc, List.pairwise_append]
    refine ⟨h.next call hmem hrun hopen, List.pairwise_singleton _ _, ?_⟩
    intro n hn m hm
    rw [List.map_singleton, List.mem_singleton] at hm
    subst hm
    rcases List.mem_append.mp hn with hn | hn
    · exact h.now n hn
    · exact hread n hn

lemma live_erased {s : System σ ρ ε} {k : ℕ} {call : Call ρ} (hk : s.reader.flight[k]? = some call) :
    (s.reader.flight.eraseIdx k).countP (fun call => call.run = s.reader.run) +
      (decide (call.run = s.reader.run)).toNat = s.reader.live :=
  countP_eraseIdx hk

lemma Sound.settled (h : Sound queries s) {k : ℕ} {call : Call ρ}
    (hk : s.reader.flight[k]? = some call) {outcome : Except ε (List (ℕ × ρ))}
    (houtcome : ∀ parts, outcome = .ok parts → parts = call.parts ∧ parts.length = queries.length) :
    Sound queries { s with reader :=
      { s.reader with flight := s.reader.flight.eraseIdx k }.settle call outcome } := by
  have hmem := List.mem_of_getElem? hk
  have herased := live_erased hk
  have hsub : ∀ c ∈ s.reader.flight.eraseIdx k, c ∈ s.reader.flight :=
    fun c hc => List.mem_of_mem_eraseIdx hc
  rw [Reader.settle]
  split
  · rename_i hlive
    have hone := h.one hlive.2
    rw [decide_eq_true hlive.1, Bool.toNat_true] at herased
    have hnone : (s.reader.flight.eraseIdx k).countP (fun call => call.run = s.reader.run) = 0 := by
      omega
    have hmoments : moments (s.reader.applied ++ [outcome]) = moments s.reader.applied ∨
        moments (s.reader.applied ++ [outcome]) =
          moments s.reader.applied ++ call.parts.map Prod.fst := by
      cases outcome with
      | error error => exact .inl (moments_failed _ error)
      | ok parts =>
        rw [(houtcome parts rfl).1]
        exact .inr (moments_snoc _ _)
    have hadded : ∀ parts, .ok parts ∈ s.reader.applied ++ [outcome] →
        .ok parts ∈ s.reader.applied ∨ (parts = call.parts ∧ parts.length = queries.length) := by
      intro parts hp
      rcases List.mem_append.mp hp with hp | hp
      · exact .inl hp
      · exact .inr (houtcome parts (List.mem_singleton.mp hp).symm)
    refine ⟨fun c hc => h.runs c (hsub c hc), ?_, ?_, fun c hc => h.read c (hsub c hc), ?_, ?_, ?_, ?_,
      ?_⟩
    · intro _
      show 1 + (s.reader.flight.eraseIdx k).countP _ = 1
      rw [hnone]
    · intro hclosed
      rw [show s.reader.closed = true from hclosed] at hlive
      cases hlive.2
    · intro parts hp
      rcases hadded parts hp with hp | ⟨rfl, _⟩
      · exact h.applied parts hp
      · exact h.read call hmem
    · intro parts hp
      rcases hadded parts hp with hp | ⟨_, hlength⟩
      · exact h.whole parts hp
      · exact hlength
    · rcases hmoments with he | he
      · exact he ▸ h.ordered
      · exact he ▸ h.next call hmem hlive.1 hlive.2
    · intro c hc hrun
      have hpos : 0 < (s.reader.flight.eraseIdx k).countP (fun call => call.run = s.reader.run) :=
        List.countP_pos_iff.mpr ⟨c, hc, decide_eq_true hrun⟩
      omega
    · intro n hn
      rcases hmoments with he | he
      · exact h.now n (he ▸ hn)
      · rcases List.mem_append.mp (he ▸ hn) with hn | hn
        · exact h.now n hn
        · exact (h.read call hmem).past n hn
  · rename_i hdead
    refine ⟨fun c hc => h.runs c (hsub c hc), ?_, h.stopped, fun c hc => h.read c (hsub c hc),
      h.applied, h.whole, h.ordered, fun c hc => h.next c (hsub c hc), h.now⟩
    intro hopen
    have hrun : ¬ call.run = s.reader.run := fun hrun => hdead ⟨hrun, hopen⟩
    rw [decide_eq_false hrun, Bool.toNat_false, Nat.add_zero] at herased
    exact (congrArg (s.reader.timer.toNat + ·) herased).trans (h.one hopen)

lemma Sound.asked (h : Sound queries s) {run : ℕ} (hrun : s.reader.run ≤ run)
    (hlive : s.reader.closed = false → s.reader.flight.countP (fun call => call.run = run) = 0) :
    Sound queries { s with reader := { s.reader with run := run }.ask } where
  runs := forall_snoc (fun call hc => Nat.le_trans (h.runs call hc) hrun) (Nat.le_refl run)
  one hopen := by
    show 0 + (s.reader.flight ++ [(⟨run, []⟩ : Call ρ)]).countP (fun call => call.run = run) = 1
    rw [List.countP_append, hlive hopen, List.countP_singleton, decide_eq_true rfl]
    rfl
  stopped _ := rfl
  read := forall_snoc h.read nofun
  applied := h.applied
  whole := h.whole
  ordered := h.ordered
  next := by
    refine forall_snoc ?_ ?_
    · intro call hc hcall hopen
      have hpos : 0 < s.reader.flight.countP (fun call => call.run = run) :=
        List.countP_pos_iff.mpr ⟨call, hc, decide_eq_true hcall⟩
      have hnone := hlive hopen
      omega
    · intro _ _
      rw [List.map_nil, List.append_nil]
      exact h.ordered
  now := h.now

lemma Sound.ticked (h : Sound queries s) (htimer : s.reader.timer = true) :
    Sound queries { s with reader := s.reader.ask } := by
  refine h.asked (Nat.le_refl _) ?_
  intro hopen
  have hone := h.one hopen
  rw [htimer, Bool.toNat_true] at hone
  exact Nat.add_left_cancel hone

lemma Sound.restarted (h : Sound queries s) :
    Sound queries { s with reader := { s.reader with run := s.reader.run + 1 }.ask } := by
  refine h.asked (Nat.le_succ _) ?_
  intro _
  rw [List.countP_eq_zero]
  intro call hc hcall
  have hrun := h.runs call hc
  rw [decide_eq_true_eq] at hcall
  omega

lemma step_sound {act : Act α ε} (h : Sound queries s) (hstep : Step step queries s act t) :
    Sound queries t := by
  cases hstep with
  | server _ => exact h.moved _
  | serve hk hquery => exact h.served hk hquery
  | arrive hk hdone =>
    refine h.settled hk ?_
    rintro _ ⟨⟩
    exact ⟨rfl, hdone⟩
  | fail hk => exact h.settled hk nofun
  | tick htimer => exact h.ticked htimer
  | restart _ => exact h.restarted
  | close =>
    exact ⟨h.runs, nofun, fun _ => rfl, h.read, h.applied, h.whole, h.ordered,
      fun _ _ _ hopen => absurd hopen Bool.noConfusion, h.now⟩

lemma run_sound {server : σ} {es : List (Event (System σ ρ ε) (Act α ε))}
    (h : Run (Step step queries) (System.begin server) es s) : Sound queries s :=
  h.keeps (Sound queries) (fun _ _ _ => step_sound) (sound_begin server)

lemma settle_applied (r : Reader ρ ε) (call : Call ρ) (outcome : Except ε (List (ℕ × ρ))) :
    r.applied <+: (r.settle call outcome).applied := by
  rw [Reader.settle]
  split
  · exact List.prefix_append _ _
  · exact List.prefix_rfl

lemma run_applied {es : List (Event (System σ ρ ε) (Act α ε))} (h : Run (Step step queries) s es t) :
    s.reader.applied <+: t.reader.applied := by
  induction h with
  | nil => exact List.prefix_rfl
  | @cons s _ _ _ _ hstep _ ih =>
    refine List.IsPrefix.trans ?_ ih
    cases hstep with
    | @arrive k => exact settle_applied { s.reader with flight := s.reader.flight.eraseIdx k } _ _
    | @fail k => exact settle_applied { s.reader with flight := s.reader.flight.eraseIdx k } _ _
    | _ => exact List.prefix_rfl

lemma run_states {P : σ → Prop} (hP : ∀ u act v, P u → step u act v → P v) {server : σ}
    (hserver : P server) {es : List (Event (System σ ρ ε) (Act α ε))}
    (h : Run (Step step queries) (System.begin server) es s) : ∀ u ∈ s.past ++ [s.server], P u := by
  refine h.keeps (fun s => ∀ u ∈ s.past ++ [s.server], P u) ?_ (List.forall_mem_singleton.mpr hserver)
  intro s act t hs hstep
  cases hstep with
  | server h => exact forall_snoc hs (hP _ _ _ (hs _ (List.mem_append_right _ List.mem_cons_self)) h)
  | _ => exact hs

end Moments

end AudioServer.Foundations.Polling
