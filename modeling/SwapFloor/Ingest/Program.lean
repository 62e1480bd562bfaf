import SwapFloor.Text.Blank

/-!
# Exchange programs

The on-chain programs whose swaps are recognised, and the platforms they belong to.
-/

namespace SwapFloor.Program

/-- The known programs and their platforms. -/
def known : List (String × String) :=
  [("JUP6LkbZbjS1jKKwapdHNy74zcZ3tLUZoi5QNyVTaV4", "jupiter"),
    ("675kPX9MHTjS2zt1qfr1NYHuzeLXfQM9H24wFSUt1Mp8", "raydium"),
    ("CAMMCzo5YL8w4VFF8KVHrK22GGUsp5VTaW7grrKgrWqK", "raydium"),
    ("CPMMoo8L3F4NbTegBCKVNunggL7H1ZpdTHKxQB5qKP1C", "raydium"),
    ("whirLbMiicVdio4qvUfM5KAg6Ct8VwpYzGff3uctyCc", "orca"),
    ("6EF8rrecthR5Dkzon8Nwu78hRvfCKubJ14M5uBEwF6P", "pumpfun"),
    ("pAMMBay6oceH9fJKBRHGP5D4bD4sWpmSwMn52FMfXEA", "pumpswap"),
    ("LBUZKhRxPF3XUpBCjp4YzTKgLccjZhTSDM9YuVaPwxo", "meteora"),
    ("Eo7WjKq67rjJQSZxS6z3YkapzY3eMj6Xy8X5EQVn5UaB", "meteora"),
    ("PhoeNiXZ8ByJGLkxNfZRnkUfjvmuYqLR89jjFHGqdXY", "phoenix")]

def platform? (id : String) : Option String := known.lookup id

/-- The program that a log line of the form `Program <id> invoke …` tells of. -/
def ofLogLine? (line : String) : Option String :=
  match Text.words line with
  | "Program" :: id :: "invoke" :: _ => some id
  | _ => none

end SwapFloor.Program
