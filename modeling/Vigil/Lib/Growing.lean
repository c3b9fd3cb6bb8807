/-! Readers of a stream that arrives in chunks.  A reader looks at all that has arrived, from the
beginning, and waits where it cannot answer yet; what it finds may leave bytes for the next reader.
A reader is stable on a stream when what arrives after an answer changes nothing in it except what
it leaves, and then its first answer does not depend on how the stream was cut. -/

namespace Vigil.Lib.Growing

variable {α β : Type}

/-- What arrives after an answer changes it as `extend` says. -/
def Stable (read : List α → Option β) (extend : β → List α → β) (stream : List α) : Prop :=
  ∀ buffer more, buffer ++ more = stream →
    ∀ answer, read buffer = some answer → read stream = some (extend answer more)

/-- The first answer over the growing buffer, with the chunks that had not arrived by then. -/
def firstAnswer (read : List α → Option β) : List α → List (List α) → Option (β × List (List α))
  | _, [] => none
  | buffered, chunk :: later =>
    match read (buffered ++ chunk) with
    | some answer => some (answer, later)
    | none => firstAnswer read (buffered ++ chunk) later

variable {read : List α → Option β} {extend : β → List α → β} {stream : List α}

/-- The first answer, extended by what arrived after it, is the answer over the whole stream. -/
theorem firstAnswer_eq (hstable : Stable read extend stream) :
    ∀ {buffered : List α} {chunks : List (List α)}, buffered ++ chunks.flatten = stream →
      read buffered = none →
        (firstAnswer read buffered chunks).map (fun first => extend first.1 first.2.flatten) =
          read stream
  | buffered, [], hstream, hnone => by
    rw [List.flatten_nil, List.append_nil] at hstream
    rw [← hstream, hnone]
    rfl
  | buffered, chunk :: chunks, hstream, hnone => by
    rw [List.flatten_cons, ← List.append_assoc] at hstream
    rw [firstAnswer]
    cases hread : read (buffered ++ chunk) with
    | none => exact firstAnswer_eq hstable hstream hread
    | some first => exact (hstable _ _ hstream _ hread).symm

/-- Two cuts of one stream lead to answers that differ in nothing but what arrived after them. -/
theorem firstAnswer_congr (hstable : Stable read extend stream) (hnone : read [] = none)
    {chunks chunks' : List (List α)} (hchunks : chunks.flatten = stream)
    (hchunks' : chunks'.flatten = stream) :
    (firstAnswer read [] chunks).map (fun first => extend first.1 first.2.flatten) =
      (firstAnswer read [] chunks').map fun first => extend first.1 first.2.flatten := by
  rw [firstAnswer_eq hstable hchunks hnone, firstAnswer_eq hstable hchunks' hnone]

end Vigil.Lib.Growing
