import SerialLine.Proofs.Lines.Mirror
/-! # What a call answers and leaves behind

* `Uart.replyTo`, `Uart.after`: the answer to a call, if it comes to one, and the world afterwards.
* `Act.answer?_onBench`, `Act.final_onBench`: both of a call that is an act on the bench.
* `Act.Mirrors.answer?_eq`: over another outside the answer is the same.
-/
set_option autoImplicit false

namespace SerialLine

variable {σ α β : Type}

namespace Act

theorem answer?_onBench (act : Act (Bench σ) α) (answer : α → β) (u : Uart) (w : World σ) :
    (answer? (do return (answer (← World.benchAct act), u) : Act (World σ) (β × Uart)) w).map Prod.fst =
      (answer? act w.bench).map answer := by
  simp only [answer?, World.benchAct, Act.onPart, bind, EStateM.bind]
  cases act w.bench with
  | ok a b => rfl
  | error e b => rfl

theorem final_onBench (act : Act (Bench σ) α) (answer : α → β) (u : Uart) (w : World σ) :
    (final (do return (answer (← World.benchAct act), u) : Act (World σ) (β × Uart)) w).bench =
      final act w.bench := by
  simp only [final, World.benchAct, Act.onPart, bind, EStateM.bind]
  cases act w.bench with
  | ok a b => rfl
  | error e b => rfl

theorem answer?_of_ok {W : Type} {act : Act W α} {w w' : W} {a : α} (h : act w = .ok a w') :
    answer? act w = some a := by rw [answer?, h]

theorem final_of_ok {W : Type} {act : Act W α} {w w' : W} {a : α} (h : act w = .ok a w') :
    final act w = w' := by rw [final, h]

theorem Mirrors.answer?_eq {V W : Type} {seen : V → W} {act' : Act V α} {act : Act W α}
    (h : Act.Mirrors seen act' act) (v : V) : answer? act (seen v) = answer? act' v := by
  rw [answer?, answer?, h v]
  cases act' v with
  | ok a v' => rfl
  | error e v' => rfl

end Act

namespace Uart

variable {u : Uart} {d : Driver σ} {p : Platform σ} {w : World σ}

deriving instance DecidableEq for Except, ReadReply, Reply

/-- The answer to a call, if it comes to one. -/
def replyTo (u : Uart) (d : Driver σ) (p : Platform σ) (call : Call) (w : World σ) : Option Reply :=
  (Act.answer? (u.perform d p call) w).map Prod.fst

/-- The world after a call. -/
def after (u : Uart) (d : Driver σ) (p : Platform σ) (call : Call) (w : World σ) : World σ :=
  Act.final (u.perform d p call) w

theorem replyTo_read {room : Nat} {reply : ReadReply} {b : Bench σ}
    (h : u.read d p room w.bench = .ok reply b) :
    u.replyTo d p (.read room) w = some (.filled room reply) ∧
      (u.after d p (.read room) w).bench = b :=
  ⟨(Act.answer?_onBench _ _ u w).trans (by rw [Act.answer?_of_ok h]; rfl),
    (Act.final_onBench _ _ u w).trans (Act.final_of_ok h)⟩

theorem replyTo_write {data : List UInt8} {result : Except Error Nat} {b : Bench σ}
    (h : u.write d p data w.bench = .ok result b) :
    u.replyTo d p (.write data) w = some (.number result) ∧
      (u.after d p (.write data) w).bench = b :=
  ⟨(Act.answer?_onBench _ _ u w).trans (by rw [Act.answer?_of_ok h]; rfl),
    (Act.final_onBench _ _ u w).trans (Act.final_of_ok h)⟩

end Uart
end SerialLine
