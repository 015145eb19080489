/-!
# Operations

The data operations, the conditional jumps and the loop family.
-/

namespace Machine8086

/-- The operations that can be decoded. -/
inductive Operation where
  | mov | add | sub | cmp
  | je | jl | jle | jb | jbe | jp | jo | js
  | jne | jnl | jnle | jnb | jnbe | jnp | jno | jns
  | loop | loopz | loopnz | jcxz
  deriving DecidableEq, Repr, Inhabited

namespace Operation

/-- All operations. -/
def all : List Operation :=
  [mov, add, sub, cmp, je, jl, jle, jb, jbe, jp, jo, js, jne, jnl, jnle, jnb, jnbe, jnp, jno, jns,
    loop, loopz, loopnz, jcxz]

/-- Assembly mnemonic. -/
def mnemonic : Operation → String
  | mov => "mov" | add => "add" | sub => "sub" | cmp => "cmp"
  | je => "je" | jl => "jl" | jle => "jle" | jb => "jb"
  | jbe => "jbe" | jp => "jp" | jo => "jo" | js => "js"
  | jne => "jne" | jnl => "jnl" | jnle => "jnle" | jnb => "jnb"
  | jnbe => "jnbe" | jnp => "jnp" | jno => "jno" | jns => "jns"
  | loop => "loop" | loopz => "loopz" | loopnz => "loopnz" | jcxz => "jcxz"

/-- The conditional jumps and the loop family take an offset, all else takes two operands. -/
def isRelativeJump : Operation → Bool
  | mov | add | sub | cmp => false
  | _ => true

end Operation

end Machine8086
