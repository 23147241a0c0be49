import SliverOS.Streams.Transducer

/-!
# Channels

Items sent one after the other as their codes, through buffers of any kind: what has been
sent is what has come out and what is in flight (`Carries`), whichever way it is moved on.

A decoder is told by the items that it has found in what it has read (`Decoder`): more
symbols only add items to them, and the codes of items are decoded as these items. At the
end of a channel, what it has found is thus a prefix of what was sent
(`Carries.delivered`), and all of it when nothing is in flight (`Carries.all_delivered`).
-/

namespace Streams

variable {α β γ : Type*}

/-- What has come out of a channel and what is in flight are the codes of what was sent. -/
def Carries (code : γ → List α) (sent : List γ) (read inFlight : List α) : Prop :=
  read ++ inFlight = sent.flatMap code

/-- The items found by a decoder, given the codes of the items and how they are seen. -/
structure Decoder (code : γ → List α) (view : γ → β) (found : List α → List β) : Prop where
  mono : ∀ xs ys, found xs <+: found (xs ++ ys)
  decodes : ∀ items : List γ, found (items.flatMap code) = items.map view

namespace Carries

variable {code : γ → List α} {sent : List γ} {read inFlight xs : List α}

theorem start : Carries code [] [] [] := rfl

/-- Items are sent: their codes are in flight, behind the others. -/
theorem send (h : Carries code sent read inFlight) (items : List γ) :
    Carries code (sent ++ items) read (inFlight ++ items.flatMap code) := by
  rw [Carries, List.flatMap_append, ← h, List.append_assoc]

/-- The first symbols in flight come out. -/
theorem receive (h : Carries code sent read (xs ++ inFlight)) :
    Carries code sent (read ++ xs) inFlight := by
  rw [Carries, ← h, List.append_assoc]

variable {view : γ → β} {found : List α → List β}

/-- What is found is a prefix of what was sent. -/
theorem delivered (h : Carries code sent read inFlight) (hd : Decoder code view found) :
    found read <+: sent.map view := by
  rw [← hd.decodes, ← h]
  exact hd.mono read inFlight

/-- With nothing in flight, all of it is found. -/
theorem all_delivered (h : Carries code sent read []) (hd : Decoder code view found) :
    found read = sent.map view := by
  rw [← hd.decodes, ← h, List.append_nil]

end Carries

/-- A transducer is a decoder when it decodes the codes of items. -/
theorem Transducer.decoder {σ δ : Type*} (m : Transducer σ α δ) (s : σ) {code : γ → List α}
    {view : γ → β} {look : δ → β}
    (h : ∀ items : List γ, (m.outputs s (items.flatMap code)).map look = items.map view) :
    Decoder code view fun xs => (m.outputs s xs).map look where
  mono xs ys := by
    rw [m.outputs_append, List.map_append]
    exact List.prefix_append _ _
  decodes := h

end Streams
