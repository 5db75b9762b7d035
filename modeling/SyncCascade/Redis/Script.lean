/-!
# The scripts of the lanes

Every change of a lane in Redis is one script, so it happens at once. A lane with the key `base` is
kept in these keys:

* `base:pending`, the pending jobs by the time at which they are ready, and `base:job:id`, a hash for
  each of them;
* `base:active`, the claimed jobs by the end of their lease, and `base:active:id`, a hash for each;
* `base:claims`, from which the tokens of claims are drawn, and `base:completed`, a counter;
* `base:failed`, the failed jobs by the time of their failure, and `base:failed:id:token`, a hash for
  each.

A hash has the payload of the job as JSON and its counters, a claimed job also its token.
-/

namespace SyncCascade.Redis

inductive Script where
  | add
  | defer
  | claim
  | complete
  | settle
deriving DecidableEq, Repr

namespace Script

def name : Script → String
  | add => "add"
  | defer => "defer"
  | claim => "claim"
  | complete => "complete"
  | settle => "settle"

def all : List Script := [add, defer, claim, complete, settle]

def addLines : List String := [
  "if redis.call('EXISTS', KEYS[2]) == 1 then",
  "  return 0",
  "end",
  "redis.call('HSET', KEYS[2],",
  "  'payload', ARGV[2], 'attempts_made', 0, 'max_attempts', ARGV[3],",
  "  'backoff_ms', ARGV[4], 'dedup_count', ARGV[6], 'stalled', ARGV[7])",
  "redis.call('ZADD', KEYS[1], ARGV[5], ARGV[1])",
  "return 1"]

def deferLines : List String := [
  "if redis.call('EXISTS', KEYS[2]) == 0 then",
  "  return -1",
  "end",
  "local n = redis.call('HINCRBY', KEYS[2], 'dedup_count', 1)",
  "local score = tonumber(redis.call('ZSCORE', KEYS[1], ARGV[1]) or '0')",
  "if tonumber(ARGV[2]) > score then",
  "  redis.call('ZADD', KEYS[1], ARGV[2], ARGV[1])",
  "end",
  "return n"]

def claimLines : List String := [
  "local ids = redis.call('ZRANGEBYSCORE', KEYS[1], '-inf', ARGV[2], 'LIMIT', 0, tonumber(ARGV[4]))",
  "for _, id in ipairs(ids) do",
  "  if not redis.call('ZSCORE', KEYS[2], id) then",
  "    local active = ARGV[1] .. ':active:' .. id",
  "    redis.call('ZREM', KEYS[1], id)",
  "    redis.call('RENAME', ARGV[1] .. ':job:' .. id, active)",
  "    redis.call('HSET', active, 'token', redis.call('INCR', ARGV[1] .. ':claims'))",
  "    redis.call('ZADD', KEYS[2], ARGV[3], id)",
  "    return redis.call('HGETALL', active)",
  "  end",
  "end",
  "return false"]

def completeLines : List String := [
  "local active = ARGV[2] .. ':active:' .. ARGV[1]",
  "if redis.call('HGET', active, 'token') ~= ARGV[3] then",
  "  return 0",
  "end",
  "redis.call('ZREM', KEYS[1], ARGV[1])",
  "redis.call('DEL', active)",
  "redis.call('INCR', KEYS[2])",
  "return 1"]

/-- A claim whose lease has run out is settled by the mode `stall`; the others settle the claim of
their token. -/
def settleLines : List String := [
  "local id = ARGV[1]",
  "local active = ARGV[2] .. ':active:' .. id",
  "local lease = redis.call('ZSCORE', KEYS[1], id)",
  "if not lease then",
  "  return \x7b'superseded', '0', '', '0'\x7d",
  "end",
  "local token = redis.call('HGET', active, 'token')",
  "if ARGV[4] == 'stall' then",
  "  if tonumber(lease) > tonumber(ARGV[3]) then",
  "    return \x7b'superseded', '0', '', '0'\x7d",
  "  end",
  "elseif token ~= ARGV[8] then",
  "  return \x7b'superseded', '0', '', '0'\x7d",
  "end",
  "redis.call('ZREM', KEYS[1], id)",
  "if ARGV[5] ~= '' then",
  "  redis.call('HSET', active, 'payload', ARGV[5])",
  "end",
  "local stalled = tonumber(redis.call('HGET', active, 'stalled') or '0')",
  "if ARGV[4] == 'stall' then",
  "  stalled = redis.call('HINCRBY', active, 'stalled', 1)",
  "end",
  "local payload = redis.call('HGET', active, 'payload')",
  "local delay = 0",
  "if ARGV[4] == 'retry' then",
  "  delay = tonumber(ARGV[6])",
  "else",
  "  local attempts = redis.call('HINCRBY', active, 'attempts_made', 1)",
  "  if attempts >= tonumber(redis.call('HGET', active, 'max_attempts')) then",
  "    local record = id .. ':' .. (token or '0')",
  "    local failed = ARGV[2] .. ':failed:' .. record",
  "    redis.call('RENAME', active, failed)",
  "    redis.call('HSET', failed, 'error', ARGV[7], 'failed_at', ARGV[3])",
  "    redis.call('ZADD', KEYS[3], ARGV[3], record)",
  "    return \x7b'failed', '0', payload, tostring(stalled)\x7d",
  "  end",
  "  if ARGV[4] == 'fail' then",
  "    delay = tonumber(redis.call('HGET', active, 'backoff_ms'))",
  "  end",
  "end",
  "local job = ARGV[2] .. ':job:' .. id",
  "if redis.call('EXISTS', job) == 1 then",
  "  redis.call('DEL', active)",
  "  return \x7b'superseded', '0', payload, tostring(stalled)\x7d",
  "end",
  "redis.call('RENAME', active, job)",
  "redis.call('ZADD', KEYS[2], tonumber(ARGV[3]) + delay, id)",
  "return \x7b'retrying', tostring(delay), payload, tostring(stalled)\x7d"]

def lines : Script → List String
  | add => addLines
  | defer => deferLines
  | claim => claimLines
  | complete => completeLines
  | settle => settleLines

def text (s : Script) : String := "\n" ++ "\n".intercalate s.lines ++ "\n"

end Script

end SyncCascade.Redis
