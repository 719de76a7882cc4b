import RelayerGraph.Query.Alignment

/-!
# Recovery reads what the recursion reads

Past the depth limit an expression is read by taking tasks from a stack, and
not by recursion.  The recursive readings are related to the stack here: what
they take from the tokens, and what they refuse, is what the stack does with
the tasks they stand for, whatever lies below those tasks.
-/

namespace RelayerGraph.Query.Parser

open Foundation Reading

variable {α β γ δ : Type}

/-! ## Readings and tasks -/

/-- Puts tasks on the stack. -/
def push (tasks more : List Task) : Parsing (List Task) :=
  pure (tasks ++ more)

/-- The stack, its top taken as given and whatever lies below it, does what
the reading did. -/
def Follows (take : List Task → Parsing (List Task)) (p : Parser) :
    Reply ParseError (α × Parser) → Prop
  | .exhausted => True
  | .failed error =>
      ∃ n, ∀ m more q, Aligned p q →
        (take more >>= recoverTasks (m + n)) q = .failed error
  | .done (_, p') =>
      ∃ n, ∀ m more q, Aligned p q → ∃ q', Aligned p' q' ∧
        (take more >>= recoverTasks (m + n)) q = recoverTasks m more q'

variable {take : List Task → Parsing (List Task)} {p : Parser}

theorem Follows.pure (a : α) : Follows (push []) p ((pure a : Parsing α) p) :=
  ⟨0, fun _ _ q hq => ⟨q, hq, rfl⟩⟩

theorem Follows.fail (error : ParseError) :
    Follows (fun _ => fail error) p ((fail error : Parsing α) p) :=
  ⟨0, fun _ _ _ _ => rfl⟩

/-- What follows carries over to a stack that comes to it. -/
theorem Follows.transport {take' : List Task → Parsing (List Task)}
    {p' : Parser} {reply : Reply ParseError (α × Parser)}
    (h : Follows take' p' reply)
    (hsame : ∀ more k q, Aligned p q → ∃ q', Aligned p' q' ∧
      (take more >>= recoverTasks k) q =
        (take' more >>= recoverTasks k) q') : Follows take p reply := by
  cases reply with
  | exhausted => trivial
  | failed error =>
      obtain ⟨n, hn⟩ := h
      refine ⟨n, fun m more q hq => ?_⟩
      obtain ⟨q', hq', heq⟩ := hsame more (m + n) q hq
      rw [heq]
      exact hn m more q' hq'
  | done result =>
      obtain ⟨n, hn⟩ := h
      refine ⟨n, fun m more q hq => ?_⟩
      obtain ⟨q', hq', heq⟩ := hsame more (m + n) q hq
      rw [heq]
      exact hn m more q' hq'

/-- A step of the reading that records at most a plan error. -/
theorem Follows.silent {x : Parsing α} {f : α → Parsing β} {a : α}
    {q : Parser} (hx : x p = .done (a, q)) (hpq : Aligned p q)
    (h : Follows take q (f a q)) : Follows take p ((x >>= f) p) := by
  rw [bind_of_done hx]
  exact h.transport fun _ _ r hr => ⟨r, hpq.symm.trans hr, rfl⟩

theorem Follows.deferPlanError {error : QueryError}
    {hphase : error.phase = .plan} {f : Unit → Parsing β}
    (h : ∀ q, Follows take q (f () q)) :
    Follows take p ((deferPlanError error hphase >>= f) p) := by
  obtain ⟨q, hq, hpq⟩ := exists_deferPlanError error p
  exact .silent hq hpq (h q)

theorem Follows.deferWhen {c : Prop} [Decidable c] {error : QueryError}
    {hphase : error.phase = .plan} {f : Unit → Parsing β}
    (h : ∀ q, Follows take q (f () q)) :
    Follows take p ((deferWhen c error hphase >>= f) p) := by
  obtain ⟨q, hq, hpq⟩ := exists_deferWhen c error p
  exact .silent hq hpq (h q)

theorem Follows.validateProperty {binding name : String}
    {f : Unit → Parsing β} (h : ∀ q, Follows take q (f () q)) :
    Follows take p ((validateProperty binding name >>= f) p) := by
  obtain ⟨q, hq, hpq⟩ := exists_validateProperty binding name p
  exact .silent hq hpq (h q)

/-- Tasks in sequence. -/
theorem Follows.bind {tasks others : List Task} {x : Parsing α}
    {f : α → Parsing β} (hx : Follows (push tasks) p (x p))
    (hf : ∀ a p', Follows (push others) p' (f a p')) :
    Follows (push (tasks ++ others)) p ((x >>= f) p) := by
  have hpush (more : List Task) (k : ℕ) (q : Parser) :
      (push (tasks ++ others) more >>= recoverTasks k) q =
        (push tasks (others ++ more) >>= recoverTasks k) q := by
    simp only [push, List.append_assoc]
  cases hxp : x p with
  | exhausted =>
      rw [bind_of_exhausted hxp]
      trivial
  | failed error =>
      rw [bind_of_failed hxp]
      rw [hxp] at hx
      obtain ⟨n, hn⟩ := hx
      refine ⟨n, fun m more q hq => ?_⟩
      rw [hpush]
      exact hn m _ q hq
  | done result =>
      obtain ⟨a, p'⟩ := result
      rw [bind_of_done hxp]
      rw [hxp] at hx
      obtain ⟨n, hn⟩ := hx
      have hnext := hf a p'
      cases hrun : f a p' with
      | exhausted => trivial
      | failed error =>
          rw [hrun] at hnext
          obtain ⟨k, hk⟩ := hnext
          refine ⟨k + n, fun m more q hq => ?_⟩
          obtain ⟨q', hq', heq⟩ := hn (m + k) (others ++ more) q hq
          rw [hpush, ← Nat.add_assoc, heq]
          exact hk m more q' hq'
      | done result =>
          rw [hrun] at hnext
          obtain ⟨k, hk⟩ := hnext
          refine ⟨k + n, fun m more q hq => ?_⟩
          obtain ⟨q', hq', heq⟩ := hn (m + k) (others ++ more) q hq
          obtain ⟨r, hr, hrest⟩ := hk m more q' hq'
          refine ⟨r, hr, ?_⟩
          rw [hpush, ← Nat.add_assoc, heq]
          exact hrest

theorem Follows.map {tasks : List Task} {x : Parsing α} {f : α → β}
    (h : Follows (push tasks) p (x p)) :
    Follows (push tasks) p ((x >>= fun a => Pure.pure (f a)) p) := by
  have hbind := h.bind fun a p' => Follows.pure (f a)
  rwa [List.append_nil] at hbind

/-- A task is taken from the stack. -/
theorem Follows.task {task : Task} {tasks : List Task}
    {reply : Reply ParseError (α × Parser)}
    (h : Follows (fun more => recoverTask task (tasks ++ more)) p reply) :
    Follows (push (task :: tasks)) p reply := by
  cases reply with
  | exhausted => trivial
  | failed error =>
      obtain ⟨n, hn⟩ := h
      exact ⟨n + 1, fun m more q hq => hn m more q hq⟩
  | done result =>
      obtain ⟨n, hn⟩ := h
      exact ⟨n + 1, fun m more q hq => hn m more q hq⟩

/-- A step that the reading and the task take alike. -/
theorem Follows.both {x : Parsing α} {f : α → Parsing β}
    {next : α → List Task → Parsing (List Task)}
    (hx : Lockstep (· = ·) x x)
    (hf : ∀ a p', Follows (next a) p' (f a p')) :
    Follows (fun more => x >>= fun a => next a more) p ((x >>= f) p) := by
  cases hxp : x p with
  | exhausted =>
      rw [bind_of_exhausted hxp]
      trivial
  | failed error =>
      rw [bind_of_failed hxp]
      refine ⟨0, fun m more q hq => ?_⟩
      have hxq := hx p q hq
      rw [hxp] at hxq
      generalize hrun : x q = reply at hxq
      cases hxq
      exact bind_of_failed (bind_of_failed hrun)
  | done result =>
      obtain ⟨a, p'⟩ := result
      rw [bind_of_done hxp]
      refine (hf a p').transport fun more k q hq => ?_
      have hxq := hx p q hq
      rw [hxp] at hxq
      generalize hrun : x q = reply at hxq
      cases hxq with
      | @done _ b h =>
          obtain ⟨b, q'⟩ := b
          obtain ⟨rfl, hq'⟩ := h
          refine ⟨q', hq', ?_⟩
          rw [bind_assoc, bind_of_done hrun]

/-- A test of the state that comes out alike in aligned states. -/
theorem Follows.test {c : Parser → Bool}
    {taken other : List Task → Parsing (List Task)} {x y : Parsing α}
    (hc : ∀ q, Aligned p q → c q = c p)
    (htrue : Follows taken p (x p)) (hfalse : Follows other p (y p)) :
    Follows
      (fun more => get >>= fun q => if c q then taken more else other more) p
      ((get >>= fun q => if c q then x else y) p) := by
  change Follows _ p ((if c p then x else y) p)
  by_cases hcp : c p
  · rw [if_pos hcp]
    refine htrue.transport fun more k q hq => ⟨q, hq, ?_⟩
    have hcq : c q = true := (hc q hq).trans hcp
    rw [bind_assoc]
    change ((if c q then taken more else other more) >>= _) q = _
    rw [if_pos hcq]
  · rw [if_neg hcp]
    refine hfalse.transport fun more k q hq => ⟨q, hq, ?_⟩
    have hcq : ¬ c q = true := by rwa [hc q hq]
    rw [bind_assoc]
    change ((if c q then taken more else other more) >>= _) q = _
    rw [if_neg hcq]

/-! ## The two readings of an expression -/

theorem lockstep_recoverAggregate (binding : String) (tasks more : List Task) :
    Lockstep (fun a b => b = a ++ more) (recoverAggregate binding tasks)
      (recoverAggregate binding (tasks ++ more)) := by
  unfold recoverAggregate
  split
  · exact .fail _
  · refine (lockstep_expectSymbol _).andThen fun _ => ?_
    refine (lockstep_eatWord _).andThen fun _ => ?_
    refine (lockstep_eatSymbol _).andThen fun star => ?_
    cases star with
    | true => exact (lockstep_expectSymbol _).andThen fun _ => .pure rfl
    | false => exact .pure rfl

/-- What a task does with the stack is to put tasks on it. -/
theorem lockstep_recoverTask (task : Task) (tasks more : List Task) :
    Lockstep (fun a b => b = a ++ more) (recoverTask task tasks)
      (recoverTask task (tasks ++ more)) := by
  cases task with
  | expression =>
      refine (lockstep_eatSymbol _).andThen fun list => ?_
      cases list with
      | true =>
          refine (lockstep_eatSymbol _).andThen fun empty => ?_
          cases empty with
          | true => exact .pure rfl
          | false => exact .pure rfl
      | false =>
          refine (lockstep_eatSymbol _).andThen fun record => ?_
          cases record with
          | true => exact .pure rfl
          | false =>
              refine lockstep_peek.andThen fun token => ?_
              split
              · exact lockstep_advance.andThen fun _ => .pure rfl
              · refine lockstep_identifier.andThen fun binding => ?_
                refine lockstep_get.bind fun p q hpq => ?_
                rw [hpq.isUnsupported_eq]
                split
                · exact .fail _
                refine (lockstep_eatSymbol _).andThen fun lookup => ?_
                cases lookup with
                | true => exact .fail _
                | false =>
                    refine lockstep_peek.andThen fun token => ?_
                    split
                    · exact lockstep_recoverAggregate _ _ _
                    refine (lockstep_eatSymbol _).andThen fun dot => ?_
                    cases dot with
                    | true =>
                        exact lockstep_identifier.andThen fun _ => .pure rfl
                    | false => exact .pure rfl
  | listTail =>
      refine (lockstep_eatSymbol _).andThen fun comma => ?_
      cases comma with
      | true => exact .pure rfl
      | false => exact (lockstep_expectSymbol _).andThen fun _ => .pure rfl
  | recordField =>
      refine lockstep_identifier.andThen fun _ => ?_
      exact (lockstep_expectSymbol _).andThen fun _ => .pure rfl
  | recordTail =>
      refine (lockstep_eatSymbol _).andThen fun comma => ?_
      cases comma with
      | true => exact .pure rfl
      | false => exact (lockstep_expectSymbol _).andThen fun _ => .pure rfl
  | close symbol =>
      exact (lockstep_expectSymbol _).andThen fun _ => .pure rfl

/-- The stack follows the stack. -/
theorem follows_recoverTasks (fuel : ℕ) (tasks : List Task) (p : Parser) :
    Follows (push tasks) p (recoverTasks fuel tasks p) := by
  induction fuel generalizing tasks p with
  | zero =>
      cases tasks with
      | nil => exact .pure ()
      | cons task tasks => trivial
  | succ fuel ih =>
      cases tasks with
      | nil => exact .pure ()
      | cons task tasks =>
          refine .task ?_
          have hsame := lockstep_recoverTask task tasks
          rw [recoverTasks]
          cases hrun : recoverTask task tasks p with
          | exhausted =>
              rw [bind_of_exhausted hrun]
              trivial
          | failed error =>
              rw [bind_of_failed hrun]
              refine ⟨0, fun m more q hq => ?_⟩
              have halike := hsame more p q hq
              rw [hrun] at halike
              generalize hrun' : recoverTask task (tasks ++ more) q = reply
                at halike
              cases halike
              exact bind_of_failed hrun'
          | done result =>
              obtain ⟨left, p'⟩ := result
              rw [bind_of_done hrun]
              refine (ih left p').transport fun more k q hq => ?_
              have halike := hsame more p q hq
              rw [hrun] at halike
              generalize hrun' : recoverTask task (tasks ++ more) q = reply
                at halike
              cases halike with
              | @done _ b h =>
                  obtain ⟨b, q'⟩ := b
                  obtain ⟨rfl, hq'⟩ := h
                  exact ⟨q', hq', bind_of_done hrun'⟩

/-- The stack follows the recursion, at every depth and budget. -/
structure FollowsExpressions (fuel : ℕ) : Prop where
  expressionAt (depth : ℕ) (p : Parser) :
    Follows (push [.expression]) p (expressionAt fuel depth p)
  listItems (depth : ℕ) (p : Parser) :
    Follows (push [.listTail]) p (listItems fuel depth p)
  recordFields (depth : ℕ) (seen : List String) (p : Parser) :
    Follows (push [.recordField]) p (recordFields fuel depth seen p)
  aggregate (name : String) (depth : ℕ) (p : Parser) :
    Follows (recoverAggregate name) p (aggregate fuel name depth p)

theorem followsExpressions (fuel : ℕ) : FollowsExpressions fuel := by
  induction fuel with
  | zero =>
      constructor
      case expressionAt => intro depth p; rw [Parser.expressionAt]; trivial
      case listItems => intro depth p; rw [Parser.listItems]; trivial
      case recordFields =>
        intro depth seen p; rw [Parser.recordFields]; trivial
      case aggregate => intro name depth p; rw [Parser.aggregate]; trivial
  | succ fuel ih =>
      constructor
      case expressionAt =>
        intro depth p
        rw [Parser.expressionAt]
        rw [get_bind]
        by_cases hcut : p.limits.astDepth < depth
        · rw [if_pos hcut]
          refine .deferPlanError fun q => ?_
          exact .map (follows_recoverTasks _ [.expression] q)
        rw [if_neg hcut]
        refine .task (.both (lockstep_eatSymbol _) fun list q => ?_)
        cases list with
        | true =>
            refine .both (lockstep_eatSymbol _) fun empty q => ?_
            cases empty with
            | true => exact .pure _
            | false =>
                change Follows (push ([.expression] ++ [.listTail])) q _
                exact .bind (ih.expressionAt _ q) fun first r =>
                  .map (ih.listItems _ r)
        | false =>
            refine .both (lockstep_eatSymbol _) fun record q => ?_
            cases record with
            | true => exact .map (ih.recordFields _ _ q)
            | false =>
                refine .both lockstep_peek fun token q => ?_
                split
                · exact .both lockstep_advance fun _ r => .pure _
                refine .both lockstep_identifier fun binding q => ?_
                refine .test (fun r hr => hr.isUnsupported_eq binding)
                  (.fail _) ?_
                refine .both (lockstep_eatSymbol _) fun lookup q => ?_
                cases lookup with
                | true => exact .fail _
                | false =>
                    refine .both lockstep_peek fun token q => ?_
                    by_cases hcall : isSymbol "(" token
                    · simp only [hcall, if_true]
                      exact ih.aggregate _ _ q
                    simp only [hcall]
                    refine .both (lockstep_eatSymbol _) fun dot q => ?_
                    cases dot with
                    | true =>
                        refine .both lockstep_identifier fun name q => ?_
                        exact .validateProperty fun r => .pure _
                    | false =>
                        change Follows (push []) q
                          ((Parser.deferWhen _ _ _ >>= _) q)
                        exact .deferWhen fun r => .pure _
      case listItems =>
        intro depth p
        rw [Parser.listItems]
        refine .task (.both (lockstep_eatSymbol _) fun comma q => ?_)
        cases comma with
        | true =>
            exact .bind (ih.expressionAt depth q) fun item r =>
              .map (ih.listItems depth r)
        | false => exact .both (lockstep_expectSymbol _) fun _ r => .pure _
      case recordFields =>
        intro depth seen p
        rw [Parser.recordFields]
        refine .task (.both lockstep_identifier fun name q => ?_)
        refine .both (lockstep_expectSymbol _) fun _ q => ?_
        change Follows (push ([.expression] ++ [.recordTail])) q _
        refine .bind (ih.expressionAt depth q) fun value r => ?_
        refine .deferWhen fun s => ?_
        refine .task (.both (lockstep_eatSymbol _) fun comma t => ?_)
        cases comma with
        | true => exact .map (ih.recordFields _ _ _)
        | false => exact .both (lockstep_expectSymbol _) fun _ _ => .pure _
      case aggregate =>
        intro name depth p
        rw [Parser.aggregate]
        cases hparse : AggregateFunction.parse name with
        | none =>
            have htake : recoverAggregate name =
                fun _ => fail (notAFunction name) := by
              funext tasks
              simp [recoverAggregate, hparse]
            rw [htake]
            exact .fail _
        | some function =>
            have htake : recoverAggregate name = fun tasks => do
                expectSymbol "("
                let _ ← eatWord "distinct"
                if ← eatSymbol "*" then
                  expectSymbol ")"
                  return tasks
                else return .expression :: .close ")" :: tasks := by
              funext tasks
              simp [recoverAggregate, hparse]
            rw [htake]
            refine .both (lockstep_expectSymbol _) fun _ q => ?_
            refine .both (lockstep_eatWord _) fun distinct q => ?_
            refine .both (lockstep_eatSymbol _) fun star q => ?_
            cases star with
            | true =>
                refine .both (lockstep_expectSymbol _) fun _ q => ?_
                exact .deferWhen fun r => .pure _
            | false =>
                change Follows (push ([.expression] ++ [.close ")"])) q _
                refine .bind (ih.expressionAt _ q) fun argument r => ?_
                refine .task (.both (lockstep_expectSymbol _) fun _ s => ?_)
                exact .deferWhen fun t => .pure _

/-! ## One outcome -/

/-- What the same tasks follow has the same outcome. -/
theorem Follows.alike {tasks : List Task} {p q : Parser}
    {reply : Reply ParseError (α × Parser)}
    {reply' : Reply ParseError (β × Parser)}
    (h : Follows (push tasks) p reply) (h' : Follows (push tasks) q reply')
    (hpq : Aligned p q) (hreply : reply ≠ .exhausted)
    (hreply' : reply' ≠ .exhausted) :
    Alike (fun a b => Aligned a.2 b.2) reply reply' := by
  cases reply with
  | exhausted => exact absurd rfl hreply
  | failed error =>
      obtain ⟨n, hn⟩ := h
      cases reply' with
      | exhausted => exact absurd rfl hreply'
      | failed error' =>
          obtain ⟨n', hn'⟩ := h'
          have hrun := hn n' [] q hpq
          have hrun' := hn' n [] q (.refl q)
          rw [Nat.add_comm n' n, hrun'] at hrun
          injection hrun with herror
          subst herror
          exact .failed error'
      | done result =>
          obtain ⟨n', hn'⟩ := h'
          have hrun := hn n' [] q hpq
          obtain ⟨r, -, hrun'⟩ := hn' n [] q (.refl q)
          rw [Nat.add_comm n' n, hrun'] at hrun
          cases n with
          | zero => cases hrun
          | succ n => cases hrun
  | done result =>
      obtain ⟨n, hn⟩ := h
      cases reply' with
      | exhausted => exact absurd rfl hreply'
      | failed error =>
          obtain ⟨n', hn'⟩ := h'
          obtain ⟨r, -, hrun⟩ := hn n' [] q hpq
          have hrun' := hn' n [] q (.refl q)
          rw [Nat.add_comm n' n, hrun'] at hrun
          cases n' with
          | zero => cases hrun
          | succ n' => cases hrun
      | done result' =>
          obtain ⟨n', hn'⟩ := h'
          obtain ⟨r, hr, hrun⟩ := hn n' [] q hpq
          obtain ⟨r', hr', hrun'⟩ := hn' n [] q (.refl q)
          rw [Nat.add_comm n' n, hrun'] at hrun
          have hend (k : ℕ) (s : Parser) :
              recoverTasks k [] s = .done ((), s) := by
            cases k <;> rfl
          rw [hend, hend] at hrun
          injection hrun with hrun
          injection hrun with _ hrun
          subst hrun
          exact .done (hr.trans hr'.symm)

/-- An expression is read to the same token, or refused alike, at every depth
and under every depth limit. -/
theorem alike_expressionAt {fuel fuel' : ℕ} {p q : Parser} (depth depth' : ℕ)
    (hpq : Aligned p q) (hp : p.rest.length < fuel)
    (hq : p.rest.length < fuel') :
    Alike (fun a b => Aligned a.2 b.2) (expressionAt fuel depth p)
      (expressionAt fuel' depth' q) := by
  have hq' : q.rest.length < fuel' := by rwa [hpq.rest_eq]
  exact ((followsExpressions fuel).expressionAt depth p).alike
    ((followsExpressions fuel').expressionAt depth' q) hpq
    ((readsExpressions hp).expressionAt depth p le_rfl).1
    ((readsExpressions hq').expressionAt depth' q le_rfl).1

/-- Recovery takes what the recursion takes, and refuses what it refuses. -/
theorem alike_recoverExpressionSyntax {fuel : ℕ} {p q : Parser} (depth : ℕ)
    (hpq : Aligned p q) (hp : p.rest.length < fuel) :
    Alike (fun a b => Aligned a.2 b.2) (expressionAt fuel depth p)
      (recoverExpressionSyntax q) :=
  ((followsExpressions fuel).expressionAt depth p).alike
    (follows_recoverTasks _ [.expression] q) hpq
    ((readsExpressions hp).expressionAt depth p le_rfl).1
    (reads_recoverExpressionSyntax q le_rfl).1

end RelayerGraph.Query.Parser
