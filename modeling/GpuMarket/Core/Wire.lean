import GpuMarket.Lib.Json
import GpuMarket.Core.Api

namespace GpuMarket

open Lib Json

/-- `serde_json::to_string` and `serde_json::from_str` at `Command`. -/
structure Serde where
  toString : Command → String
  fromStr : String → Option Command

/-- Decoding a serialized command gives the command back. -/
def Serde.RoundTrip (serde : Serde) : Prop := ∀ cmd, serde.fromStr (serde.toString cmd) = some cmd

namespace Command

/-- The compact JSON of a command: the tag `cmd`, then the fields in their order. -/
def write : Command → List Char
  | .startRental rentalId image sshPubkey =>
    writeKey openBrace "cmd" ++ (writeString "start_rental" ++
      (writeKey ',' "rental_id" ++ (writeInt rentalId ++
        (writeKey ',' "image" ++ (writeString image ++
          (writeKey ',' "ssh_pubkey" ++ (writeString sshPubkey ++ [closeBrace])))))))
  | .stopRental rentalId =>
    writeKey openBrace "cmd" ++ (writeString "stop_rental" ++
      (writeKey ',' "rental_id" ++ (writeInt rentalId ++ [closeBrace])))

def read (s : List Char) : Option Command := do
  let s ← expect (writeKey openBrace "cmd") s
  let (cmd, s) ← readString s
  let s ← expect (writeKey ',' "rental_id") s
  let (rentalId, s) ← readInt s
  if cmd = "start_rental" then
    let s ← expect (writeKey ',' "image") s
    let (image, s) ← readString s
    let s ← expect (writeKey ',' "ssh_pubkey") s
    let (sshPubkey, s) ← readString s
    if s = [closeBrace] then some (.startRental rentalId image sshPubkey) else none
  else if cmd = "stop_rental" ∧ s = [closeBrace] then some (.stopRental rentalId)
  else none

theorem read_write (cmd : Command) : read (write cmd) = some cmd := by
  have notDigit : ∀ s, ∀ c ∈ (writeKey ',' "image" ++ s).head?, c.isDigit = false := by
    intro s c hc
    cases hc
    decide
  cases cmd with
  | startRental rentalId image sshPubkey =>
    simp [read, write, expect_append, readString_writeString, readInt_writeInt _ (notDigit _)]
  | stopRental rentalId =>
    have closed : ∀ c ∈ [closeBrace].head?, c.isDigit = false := by
      intro c hc
      cases hc
      decide
    have hint := readInt_writeInt rentalId closed
    simp [read, write, expect_append, readString_writeString, hint]

end Command

def Serde.json : Serde where
  toString cmd := String.ofList cmd.write
  fromStr s := Command.read s.toList

theorem Serde.json_roundTrip : Serde.json.RoundTrip := by
  intro cmd
  simp [json, Command.read_write]

end GpuMarket
