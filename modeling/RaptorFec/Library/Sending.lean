import RaptorFec.Library.Runs

/-!
# Sending until the first failure

A link takes messages one by one and may fail at any of them: `send` is one call, from a state of
the link to its result and the next state.

* `sendAll` — the loop over the messages, which the first failure ends;
* `taken` — the messages that the link took in this loop;
* `sendAll_cases` — either the link took them all, or it took those in front of the one that failed;
* `SendRun` — calls that encode a request and send the messages of it, one call after the other;
* `SendRun.calls` — what the link took in these calls are messages of the requests that were
  accepted, in order.
-/

namespace RaptorFec

variable {σ δ ε : Type*} (send : σ → δ → Except ε Unit × σ)

/-- Send the messages in order; the first failure ends the loop. -/
def sendAll : σ → List δ → Except ε Unit × σ
  | s, [] => (.ok (), s)
  | s, message :: messages =>
      match send s message with
      | (.error error, s) => (.error error, s)
      | (.ok (), s) => sendAll s messages

/-- The messages that the link took. -/
def taken : σ → List δ → List δ
  | _, [] => []
  | s, message :: messages =>
      match send s message with
      | (.error _, _) => []
      | (.ok (), s) => message :: taken s messages

variable {send} {s : σ} {message : δ}

lemma sendAll_cons_ok (messages : List δ) (h : (send s message).1 = .ok ()) :
    sendAll send s (message :: messages) = sendAll send (send s message).2 messages ∧
      taken send s (message :: messages) = message :: taken send (send s message).2 messages := by
  rw [sendAll, taken]
  cases hsend : send s message with
  | mk result next =>
      rw [hsend] at h
      obtain rfl : result = .ok () := h
      exact ⟨rfl, rfl⟩

lemma sendAll_cons_error {error : ε} (messages : List δ)
    (h : (send s message).1 = .error error) :
    sendAll send s (message :: messages) = (.error error, (send s message).2) ∧
      taken send s (message :: messages) = [] := by
  rw [sendAll, taken]
  cases hsend : send s message with
  | mk result next =>
      rw [hsend] at h
      obtain rfl : result = .error error := h
      exact ⟨rfl, rfl⟩

/-- **The loop sends a prefix**: all messages, and it succeeds; or those in front of the first one
at which the link fails, and it returns the error of the link. -/
theorem sendAll_cases (send : σ → δ → Except ε Unit × σ) (s : σ) (messages : List δ) :
    (sendAll send s messages = (.ok (), runState send s messages) ∧
      taken send s messages = messages) ∨
    ∃ failed behind error, messages = taken send s messages ++ failed :: behind ∧
      (send (runState send s (taken send s messages)) failed).1 = .error error ∧
      sendAll send s messages
        = (.error error, runState send s (taken send s messages ++ [failed])) := by
  induction messages generalizing s with
  | nil => exact Or.inl ⟨rfl, rfl⟩
  | cons message messages ih =>
      cases hsend : (send s message).1 with
      | error error =>
          obtain ⟨hall, htaken⟩ := sendAll_cons_error messages hsend
          refine Or.inr ⟨message, messages, error, by rw [htaken]; rfl, ?_, ?_⟩
          · rw [htaken]
            exact hsend
          · rw [hall, htaken]
            rfl
      | ok taken' =>
          obtain ⟨hall, htaken⟩ := sendAll_cons_ok messages hsend
          rw [hall, htaken]
          rcases ih (send s message).2 with
            ⟨hok, hsame⟩ | ⟨failed, behind, error, hsplit, hfail, herr⟩
          · exact Or.inl ⟨hok, by rw [hsame]⟩
          · exact Or.inr ⟨failed, behind, error, congrArg (message :: ·) hsplit, hfail, herr⟩

lemma taken_prefix (send : σ → δ → Except ε Unit × σ) (s : σ) (messages : List δ) :
    taken send s messages <+: messages := by
  rcases sendAll_cases send s messages with ⟨-, hsame⟩ | ⟨failed, behind, _, hsplit, -⟩
  · rw [hsame]
  · exact ⟨failed :: behind, hsplit.symm⟩

/-! ## Calls that encode and send -/

section Calls

variable {τ ι ρ μ : Type*}

/-- Successive calls, with their results and the messages that the link takes. -/
inductive SendRun (Call : τ → ι → ρ → List μ → τ → Prop) : τ → List ι → List ρ → List μ → Prop
  | nil (t : τ) : SendRun Call t [] [] []
  | cons {t t' : τ} {request : ι} {result : ρ} {took : List μ} {requests : List ι}
      {results : List ρ} {rest : List μ} (hcall : Call t request result took t')
      (hrest : SendRun Call t' requests results rest) :
      SendRun Call t (request :: requests) (result :: results) (took ++ rest)

/-- The requests whose results say that they were accepted. -/
def acceptedRequests (accepted : ρ → Bool) (requests : List ι) (results : List ρ) : List ι :=
  ((requests.zip results).filter fun answered => accepted answered.2).map Prod.fst

/-- **The calls, seen by the encoder**: every request it accepts is encoded as a whole, whether or
not the link takes all its messages. -/
theorem SendRun.calls {γ : Type*} {Call : τ → ι → ρ → List μ → τ → Prop}
    {Encode : γ → ι → Except ε (List μ) → γ → Prop} (part : τ → γ) (accepted : ρ → Bool)
    (hcall : ∀ t request result took t', Call t request result took t' →
      (∃ error, Encode (part t) request (.error error) (part t') ∧ accepted result = false ∧
        took = []) ∨
      ∃ messages, Encode (part t) request (.ok messages) (part t') ∧ accepted result = true ∧
        took <+: messages)
    {t : τ} {requests : List ι} {results : List ρ} {took : List μ}
    (h : SendRun Call t requests results took) :
    ∃ messages, AcceptedCalls Encode (part t) (acceptedRequests accepted requests results) messages ∧
      took.Sublist messages := by
  induction h with
  | nil t => exact ⟨[], .nil _, .slnil⟩
  | cons hfirst _ ih =>
      obtain ⟨rest, hrest, hsub⟩ := ih
      rcases hcall _ _ _ _ _ hfirst with ⟨error, hencode, hresult, rfl⟩ |
        ⟨messages, hencode, hresult, htook⟩
      · rw [acceptedRequests, List.zip_cons_cons, List.filter_cons_of_neg (by simp [hresult])]
        exact ⟨rest, .refused hencode hrest, hsub⟩
      · rw [acceptedRequests, List.zip_cons_cons, List.filter_cons_of_pos (by simpa using hresult)]
        exact ⟨messages ++ rest, .accepted hencode hrest, htook.sublist.append hsub⟩

end Calls

end RaptorFec
